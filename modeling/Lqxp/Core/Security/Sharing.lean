import Lqxp.Core.Security
import Lqxp.Data.FixedWindow

/-!
This module contains the proof that the keys of the rate limiter do not notice that they share one map, from
which buckets are evicted.
-/

namespace Lqxp

/--
The limit and the window that the callers use for a key.
-/
structure RateLimitPolicy where
  limit : String → Nat
  windowMs : String → Nat

variable (policy : RateLimitPolicy)

def RateLimitPolicy.rule (key : String) : FixedWindow.Rule :=
  { limit := policy.limit key, length := policy.windowMs key, maxCount := 2 ^ 32 - 1 }

/--
Calls of the limiter one after the other, each with its time and its key, and what they are told.
-/
def rateLimitHits (buckets : AssocMap String RateLimitBucket) : List (Nat × String)
    → List (String × Nat × Bool)
  | [] => []
  | (now, key) :: calls =>
    let (hit, buckets) := rateLimitHit now key (policy.limit key) (policy.windowMs key) buckets
    (key, now, hit) :: rateLimitHits buckets calls

def hitsOf (key : String) (hits : List (String × Nat × Bool)) : List (Nat × Bool) :=
  (hits.filter (·.1 = key)).map (·.2)

def timesOf (key : String) (calls : List (Nat × String)) : List Nat :=
  (calls.filter (·.2 = key)).map (·.1)

section Keys

theorem hitsOf_cons_self (key : String) (hit : Nat × Bool) (hits : List (String × Nat × Bool))
    : hitsOf key ((key, hit) :: hits) = hit :: hitsOf key hits := by
  simp [hitsOf]

theorem hitsOf_cons_of_ne {key key' : String} (h : key' ≠ key) (hit : Nat × Bool)
    (hits : List (String × Nat × Bool)) : hitsOf key ((key', hit) :: hits) = hitsOf key hits := by
  simp [hitsOf, h]

theorem timesOf_cons_self (now : Nat) (key : String) (calls : List (Nat × String))
    : timesOf key ((now, key) :: calls) = now :: timesOf key calls := by
  simp [timesOf]

theorem timesOf_cons_of_ne {key key' : String} (h : key' ≠ key) (now : Nat) (calls : List (Nat × String))
    : timesOf key ((now, key') :: calls) = timesOf key calls := by
  simp [timesOf, h]

end Keys

def RateLimitBucket.window (bucket : RateLimitBucket) : FixedWindow :=
  { start := bucket.windowStartMs, count := bucket.count }

/--
The map has the window of the separate limiter of a key, unless the window is over.
-/
structure Tracks (rule : FixedWindow.Rule) (key : String) (now : Nat)
    (buckets : AssocMap String RateLimitBucket) (window : Option FixedWindow) : Prop where
  shared (bucket : RateLimitBucket) :
    buckets.lookup key = some bucket → window = some bucket.window ∧ bucket.windowMs = rule.length
  evicted (old : FixedWindow) :
    buckets.lookup key = none → window = some old → rule.length < now - old.start

namespace Tracks

variable {rule : FixedWindow.Rule} {key : String} {now : Nat} {buckets : AssocMap String RateLimitBucket}
  {window : Option FixedWindow}

theorem initial : Tracks rule key now ∅ none where
  shared bucket h := by simp at h
  evicted old _ h := by simp at h

theorem later (h : Tracks rule key now buckets window) {now' : Nat} (hnow : now ≤ now')
    : Tracks rule key now' buckets window where
  shared := h.shared
  evicted old hlookup hwindow := by
    have hover := h.evicted old hlookup hwindow
    omega

theorem evict (h : Tracks rule key now buckets window)
    : Tracks rule key now
        (buckets.retain fun _ bucket => now - bucket.windowStartMs ≤ bucket.windowMs) window where
  shared bucket hlookup := by
    rw [AssocMap.lookup_retain, Option.filter_eq_some_iff] at hlookup
    exact h.shared bucket hlookup.1
  evicted old hlookup hwindow := by
    rw [AssocMap.lookup_retain] at hlookup
    cases hbucket : buckets.lookup key with
    | none => exact h.evicted old hbucket hwindow
    | some bucket =>
      obtain ⟨hshared, hlength⟩ := h.shared bucket hbucket
      obtain rfl : bucket.window = old := Option.some.inj (hshared.symm.trans hwindow)
      rw [hbucket] at hlookup
      have hover : ¬ now - bucket.windowStartMs ≤ bucket.windowMs := by
        simpa [Option.filter] using hlookup
      exact hlength ▸ Nat.lt_of_not_le hover

theorem hit_eq (h : Tracks rule key now buckets window)
    : let fresh : RateLimitBucket := { windowStartMs := now, windowMs := rule.length, count := 0 }
      let bucket := (buckets.lookup key).getD fresh
      let bucket := if rule.length < now - bucket.windowStartMs then fresh else bucket
      bucket.windowMs = rule.length
        ∧ FixedWindow.hit rule now window
          = { start := bucket.windowStartMs, count := min (bucket.count + 1) rule.maxCount } := by
  intro fresh bucket₀ bucket
  have hfresh : FixedWindow.hit rule now none = { start := now, count := min 1 rule.maxCount } :=
    FixedWindow.hit_none now
  cases hlookup : buckets.lookup key with
  | none =>
    have hbucket : bucket = fresh := by
      simp [bucket, bucket₀, hlookup]
    refine ⟨by rw [hbucket], ?_⟩
    rw [hbucket]
    cases hwindow : window with
    | none => exact hfresh
    | some old =>
      rw [FixedWindow.hit_of_expired (h.evicted old hlookup hwindow)]
      exact hfresh
  | some old =>
    obtain ⟨hwindow, hlength⟩ := h.shared old hlookup
    rw [hwindow]
    by_cases hover : rule.length < now - old.windowStartMs
    . have hbucket : bucket = fresh := by
        simp [bucket, bucket₀, hlookup, hover]
      refine ⟨by rw [hbucket], ?_⟩
      rw [hbucket, FixedWindow.hit_of_expired hover]
      exact hfresh
    . have hbucket : bucket = old := by
        simp [bucket, bucket₀, hlookup, hover]
      refine ⟨by rw [hbucket, hlength], ?_⟩
      rw [hbucket, FixedWindow.hit_of_open (Nat.le_of_not_lt hover)]
      rfl

theorem purge (h : Tracks rule key now buckets window)
    : Tracks rule key now
        (if 5000 < buckets.size then
          buckets.retain fun _ bucket => now - bucket.windowStartMs ≤ bucket.windowMs
        else
          buckets) window := by
  split
  . exact h.evict
  . exact h

theorem hit (h : Tracks rule key now buckets window) (hmax : rule.maxCount = 2 ^ 32 - 1)
    : (rateLimitHit now key rule.limit rule.length buckets).1
          = decide (rule.limit < (FixedWindow.hit rule now window).count)
        ∧ Tracks rule key now (rateLimitHit now key rule.limit rule.length buckets).2
            (some (FixedWindow.hit rule now window)) := by
  obtain ⟨hlength, hhit⟩ := h.purge.hit_eq
  rw [hmax] at hhit
  rw [rateLimitHit, hhit]
  refine ⟨rfl, ?_, ?_⟩
  . intro bucket hlookup
    rw [AList.lookup_insert] at hlookup
    obtain rfl := Option.some.inj hlookup
    exact ⟨rfl, hlength⟩
  . intro old hlookup
    rw [AList.lookup_insert] at hlookup
    contradiction

theorem hit_of_ne (h : Tracks rule key now buckets window) {key' : String} (hkey : key ≠ key')
    (limit windowMs : Nat)
    : Tracks rule key now (rateLimitHit now key' limit windowMs buckets).2 window := by
  have hpurge := h.purge
  rw [rateLimitHit]
  refine ⟨?_, ?_⟩
  . intro bucket hlookup
    rw [AList.lookup_insert_ne hkey] at hlookup
    exact hpurge.shared bucket hlookup
  . intro old hlookup
    rw [AList.lookup_insert_ne hkey] at hlookup
    exact hpurge.evicted old hlookup

end Tracks

variable {policy}

theorem hitsOf_rateLimitHits {now : Nat} {key : String} {buckets : AssocMap String RateLimitBucket}
    {window : Option FixedWindow} (h : Tracks (policy.rule key) key now buckets window)
    {calls : List (Nat × String)} (hcalls : (calls.map (·.1)).Pairwise (· ≤ ·))
    (hnow : ∀ call ∈ calls, now ≤ call.1)
    : hitsOf key (rateLimitHits policy buckets calls)
        = FixedWindow.run (policy.rule key) window (timesOf key calls) := by
  induction calls generalizing now buckets window with
  | nil => rfl
  | cons call calls ih =>
    obtain ⟨now', key'⟩ := call
    obtain ⟨hnext, hcalls⟩ := List.pairwise_cons.1 hcalls
    have hlater : Tracks (policy.rule key) key now' buckets window := h.later (hnow (now', key') (by simp))
    have hnow' : ∀ call ∈ calls, now' ≤ call.1 := fun call hcall => hnext _ (List.mem_map_of_mem hcall)
    rw [rateLimitHits]
    by_cases hkey : key' = key
    . subst hkey
      obtain ⟨hhit, htracks⟩ := hlater.hit rfl
      rw [hitsOf_cons_self, timesOf_cons_self, FixedWindow.run, ← ih htracks hcalls hnow', ← hhit]
      rfl
    . rw [hitsOf_cons_of_ne hkey, timesOf_cons_of_ne hkey,
        ih (hlater.hit_of_ne (Ne.symm hkey) _ _) hcalls hnow']

/--
No key notices the others, and no interval of the length of its window allows more than twice its limit.
-/
theorem rateLimitHits_separate (policy : RateLimitPolicy) {calls : List (Nat × String)}
    (hcalls : (calls.map (·.1)).Pairwise (· ≤ ·)) (key : String)
    : hitsOf key (rateLimitHits policy ∅ calls)
          = FixedWindow.run (policy.rule key) none (timesOf key calls)
        ∧ (policy.limit key < 2 ^ 32 - 1 → ∀ start,
          FixedWindow.allowed (policy.rule key) start (hitsOf key (rateLimitHits policy ∅ calls))
            ≤ 2 * policy.limit key) := by
  have hsame : hitsOf key (rateLimitHits policy ∅ calls) = _ :=
    hitsOf_rateLimitHits .initial hcalls fun _ _ => Nat.zero_le _
  refine ⟨hsame, fun hlimit start => ?_⟩
  have htimes : (timesOf key calls).Pairwise (· ≤ ·) :=
    hcalls.sublist (List.filter_sublist.map _)
  rw [hsame]
  exact FixedWindow.allowed_run_le hlimit none htimes

/--
Three calls for one key and one for another.
-/
theorem rateLimitHits_separate_threeCalls
    : hitsOf "a" (rateLimitHits { limit := fun _ => 1, windowMs := fun _ => 10 } ∅
          [(0, "a"), (5, "b"), (10, "a"), (11, "a")]) = [(0, false), (10, true), (11, false)]
        ∧ FixedWindow.allowed { limit := 1, length := 10, maxCount := 2 ^ 32 - 1 } 1
          (hitsOf "a" (rateLimitHits { limit := fun _ => 1, windowMs := fun _ => 10 } ∅
            [(0, "a"), (5, "b"), (10, "a"), (11, "a")])) ≤ 2 := by
  obtain ⟨hsame, hbound⟩ := rateLimitHits_separate { limit := fun _ => 1, windowMs := fun _ => 10 }
    (by decide : ([(0, "a"), (5, "b"), (10, "a"), (11, "a")].map (·.1)).Pairwise (· ≤ ·)) "a"
  exact ⟨hsame.trans (by decide), hbound (by decide) 1⟩

/--
The largest limit is none at all: the counter stops there.
-/
theorem not_allowed_le_of_maxLimit
    : ¬ ∀ (policy : RateLimitPolicy) (calls : List (Nat × String)), (∀ key, policy.limit key < 2 ^ 32) →
        (calls.map (·.1)).Pairwise (· ≤ ·) → ∀ key start,
          FixedWindow.allowed (policy.rule key) start (hitsOf key (rateLimitHits policy ∅ calls))
            ≤ 2 * policy.limit key := by
  intro h
  have hbound := h { limit := fun _ => 2 ^ 32 - 1, windowMs := fun _ => 10 } (List.replicate (2 ^ 33) (0, "k"))
    (fun _ => Nat.sub_lt (by decide) (by decide)) (by rw [List.map_replicate, List.pairwise_replicate]; simp) "k" 0
  have htimes : timesOf "k" (List.replicate (2 ^ 33) (0, "k")) = List.replicate (2 ^ 33) 0 := by
    rw [timesOf, List.filter_replicate_of_pos (by simp), List.map_replicate]
  rw [hitsOf_rateLimitHits .initial (by rw [List.map_replicate, List.pairwise_replicate]; simp)
    (fun _ _ => Nat.zero_le _), htimes, FixedWindow.allowed_run_of_maxCount_le (Nat.le_refl _),
    List.length_replicate] at hbound
  . exact absurd hbound (by decide)
  . intro now hnow
    rw [List.eq_of_mem_replicate hnow]
    exact ⟨Nat.le_refl _, Nat.zero_le _⟩

end Lqxp
