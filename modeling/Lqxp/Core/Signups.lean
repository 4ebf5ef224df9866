import Lqxp.Core.Result
import Lqxp.Data.Histogram

/-!
This module contains the numbers of accounts created on each of the last days, which administrators see as a chart.
-/

namespace Lqxp

def dayMs : Int := 24 * 60 * 60 * 1000

structure SignupDay where
  day : Nat
  count : Nat
  deriving DecidableEq

def asI64 (n : Nat) : Int := (BitVec.ofNat 64 n).toInt

/--
The accounts created on each of the last `days` days, oldest first, from the times in the table of users. A query
that fails yields no times.
-/
def signupsPerDay (createdAt : Option (List Int)) (nowMs days : Nat) : ApiResult (List SignupDay) :=
  let span := max 1 (min days 120)
  let today := (asI64 nowMs).tdiv dayMs * dayMs
  let origin := today - ((span : Int) - 1) * dayMs
  match createdAt with
  | none => throw .internal
  | some createdAt =>
    -- The database truncates quotients; it skips the rows before the first day.
    let rows := Histogram.groupCounts <|
      (createdAt.filter (origin ≤ ·)).map fun created => (created - origin).tdiv dayMs
    let counts := rows.foldl Histogram.setBin (List.replicate span 0)
    return counts.mapIdx fun index count => { day := ((origin + index * dayMs) % 2 ^ 64).toNat, count }

section Window

theorem asI64_lt (n : Nat) : asI64 n < 2 ^ 63 := by
  have := (BitVec.ofNat 64 n).toInt_lt
  simpa [asI64] using this

theorem tdiv_sub_eq_iff {first created : Int} {i : Nat} (h : first * dayMs ≤ created)
    : (created - first * dayMs).tdiv dayMs = i ↔ created / dayMs = first + i := by
  rw [Int.tdiv_eq_ediv_of_nonneg (by omega), Int.sub_mul_ediv_right _ _ (by decide)]
  omega

theorem le_of_ediv_eq {first created : Int} {i : Nat} (h : created / dayMs = first + i) : first * dayMs ≤ created := by
  rw [← Int.le_ediv_iff_mul_le (by decide), h]
  omega

theorem count_bins (createdAt : List Int) (first : Int) (i : Nat)
    : ((createdAt.filter (first * dayMs ≤ ·)).map fun created => (created - first * dayMs).tdiv dayMs).count (i : Int)
        = createdAt.countP (· / dayMs = first + i) := by
  rw [List.count, List.countP_map, List.countP_filter]
  refine List.countP_congr fun created _ => ?_
  simp only [Function.comp, Bool.and_eq_true, beq_iff_eq, decide_eq_true_eq]
  constructor
  . rintro ⟨hbin, hstart⟩
    exact (tdiv_sub_eq_iff hstart).1 hbin
  . intro hday
    exact ⟨(tdiv_sub_eq_iff (le_of_ediv_eq hday)).2 hday, le_of_ediv_eq hday⟩

theorem ediv_dayMs_eq_iff {created n : Int}
    : created / dayMs = n ↔ n * dayMs ≤ created ∧ created < n * dayMs + dayMs := by
  have hday : dayMs = 86400000 := by decide
  rw [hday]
  omega

theorem origin_eq {now : Int} (h : 0 ≤ now) (span : Nat)
    : now.tdiv dayMs * dayMs - ((span : Int) - 1) * dayMs = (now / dayMs + 1 - span) * dayMs := by
  rw [Int.tdiv_eq_ediv_of_nonneg h, ← Int.sub_mul]
  congr 1
  omega

theorem day_bounds {nowMs span i : Nat} (hnow : 120 * dayMs ≤ asI64 nowMs) (hspan : span ≤ 120) (hi : i < span)
    : 0 ≤ (asI64 nowMs / dayMs + 1 - span + i) * dayMs ∧ (asI64 nowMs / dayMs + 1 - span + i) * dayMs < 2 ^ 64 := by
  have hlt := asI64_lt nowMs
  have hday : dayMs = 86400000 := by decide
  rw [hday] at hnow ⊢
  omega

theorem getElem?_bins (createdAt : List Int) (first : Int) {span i : Nat} (hi : i < span)
    : ((Histogram.groupCounts <|
        (createdAt.filter (first * dayMs ≤ ·)).map fun created => (created - first * dayMs).tdiv dayMs).foldl
          Histogram.setBin (List.replicate span 0))[i]? = some (createdAt.countP (· / dayMs = first + i)) := by
  rw [Histogram.getElem?_fill _ hi, count_bins]

/--
The chart has the last days up to the current one, each with the number of the accounts created on it, and all
together those created from its beginning to its end.
-/
theorem signupsPerDay_exact (createdAt : List Int) (nowMs days : Nat) (hnow : 120 * dayMs ≤ asI64 nowMs)
    : ∃ result, signupsPerDay (some createdAt) nowMs days = .ok result
        ∧ result.length = max 1 (min days 120)
        ∧ (∀ (i : Nat) (entry : SignupDay), result[i]? = some entry →
          (entry.day : Int) = (asI64 nowMs / dayMs + 1 - result.length + i) * dayMs
            ∧ entry.count = createdAt.countP fun created => (entry.day : Int) ≤ created ∧ created < entry.day + dayMs)
        ∧ (result.map (·.count)).sum = createdAt.countP fun created =>
          (asI64 nowMs / dayMs + 1 - result.length) * dayMs ≤ created ∧ created < (asI64 nowMs / dayMs + 1) * dayMs := by
  have hspan : max 1 (min days 120) ≤ 120 := by omega
  generalize hgeneralize : max 1 (min days 120) = span at hspan
  have hnonneg : 0 ≤ asI64 nowMs := Int.le_trans (by decide) hnow
  have hbounds {i : Nat} (hi : i < span) := day_bounds hnow hspan hi
  have horigin := origin_eq hnonneg span
  generalize hfirst : asI64 nowMs / dayMs + 1 - (span : Int) = first at horigin hbounds
  let result := (((Histogram.groupCounts <|
    (createdAt.filter (first * dayMs ≤ ·)).map fun created => (created - first * dayMs).tdiv dayMs).foldl
      Histogram.setBin (List.replicate span 0))).mapIdx fun index count =>
        ({ day := ((first * dayMs + index * dayMs) % 2 ^ 64).toNat, count } : SignupDay)
  have hlength : result.length = span := by
    rw [List.length_mapIdx, Histogram.length_foldl_setBin, List.length_replicate]
  have hentry {i : Nat} (hi : i < span) : result[i]?
      = some { day := ((first + i) * dayMs).toNat, count := createdAt.countP (· / dayMs = first + i) } := by
    have hmod : (first * dayMs + i * dayMs) % 2 ^ 64 = (first + i) * dayMs := by
      rw [← Int.add_mul]
      exact Int.emod_eq_of_lt (hbounds hi).1 (hbounds hi).2
    rw [List.getElem?_mapIdx, getElem?_bins createdAt first hi, Option.map_some, hmod]
  refine ⟨result, ?_, hlength, fun i entry hi => ?_, ?_⟩
  . rw [signupsPerDay, hgeneralize, horigin]
    rfl
  . have hlt : i < span := hlength ▸ (List.getElem?_eq_some_iff.1 hi).1
    obtain rfl := Option.some.inj ((hentry hlt).symm.trans hi)
    have hday : (((first + i) * dayMs).toNat : Int) = (first + i) * dayMs := Int.toNat_of_nonneg (hbounds hlt).1
    refine ⟨by rw [hday, hlength, hfirst], ?_⟩
    dsimp only
    rw [hday]
    refine List.countP_congr fun created _ => ?_
    rw [decide_eq_true_eq, decide_eq_true_eq, ediv_dayMs_eq_iff]
  . have hcounts : result.map (·.count)
        = (List.range span).map fun i : Nat => createdAt.countP (· / dayMs = first + i) := by
      refine List.ext_getElem? fun i => ?_
      rw [List.getElem?_map, List.getElem?_map]
      by_cases hi : i < span
      . rw [hentry hi, List.getElem?_range hi, Option.map_some, Option.map_some]
      . rw [List.getElem?_eq_none (by omega), List.getElem?_eq_none (by rw [List.length_range]; omega)]
        rfl
    rw [hcounts, Histogram.sum_countP, hlength, hfirst]
    refine List.countP_congr fun created _ => ?_
    have hlast : first + span = asI64 nowMs / dayMs + 1 := by omega
    rw [decide_eq_true_eq, decide_eq_true_eq, hlast, Int.le_ediv_iff_mul_le (by decide),
      Int.ediv_lt_iff_lt_mul (by decide)]

/--
Of four accounts two were created on the current day and one on the day before, and one is of a day to come.
-/
theorem signupsPerDay_exact_four
    : ∃ result, signupsPerDay (some [119 * 86400000 + 5, 120 * 86400000, 120 * 86400000 + 86399999, 121 * 86400000])
        (120 * 86400000 + 1000) 2 = .ok result ∧ result.length = 2 ∧ (result.map (·.count)).sum = 3 := by
  obtain ⟨result, hresult, hlength, -, hsum⟩ := signupsPerDay_exact
    [119 * 86400000 + 5, 120 * 86400000, 120 * 86400000 + 86399999, 121 * 86400000] (120 * 86400000 + 1000) 2 (by decide)
  refine ⟨result, hresult, hlength, ?_⟩
  rw [hsum, hlength]
  decide

end Window

end Lqxp
