import Mathlib.Data.List.Pairwise
import Mathlib.Order.Basic

/-!
This module contains the limiter that counts hits in fixed windows, and the bound on the hits that it allows
in an interval of time.
-/

/--
The window that a limiter counts in.
-/
structure FixedWindow where
  start : Nat
  count : Nat
  deriving DecidableEq

namespace FixedWindow

/--
How many hits a window allows, how long it lasts, and the largest number that its counter can hold.
-/
structure Rule where
  limit : Nat
  length : Nat
  maxCount : Nat

variable (rule : Rule)

/--
Count a hit. A window begins with the first hit, and anew with the first one after it is over.
-/
def hit (now : Nat) (window : Option FixedWindow) : FixedWindow :=
  let fresh : FixedWindow := { start := now, count := 0 }
  let window := window.getD fresh
  let window := if rule.length < now - window.start then fresh else window
  { window with count := min (window.count + 1) rule.maxCount }

/--
The times of the hits, each with whether it was over the limit.
-/
def run : Option FixedWindow → List Nat → List (Nat × Bool)
  | _, [] => []
  | window, now :: times =>
    let window := hit rule now window
    (now, decide (rule.limit < window.count)) :: run (some window) times

/--
The number of hits allowed in an interval of the length of a window.
-/
def allowed (start : Nat) (hits : List (Nat × Bool)) : Nat :=
  hits.countP fun hit => start ≤ hit.1 && hit.1 ≤ start + rule.length && !hit.2

variable {rule}

theorem hit_of_expired {now : Nat} {window : FixedWindow} (h : rule.length < now - window.start)
    : hit rule now (some window) = hit rule now none := by
  simp [hit, h]

theorem hit_of_open {now : Nat} {window : FixedWindow} (h : now - window.start ≤ rule.length)
    : hit rule now (some window)
        = { start := window.start, count := min (window.count + 1) rule.maxCount } := by
  simp [hit, Nat.not_lt.2 h]

theorem hit_none (now : Nat) : hit rule now none = { start := now, count := min 1 rule.maxCount } := by
  simp [hit]

theorem one_le_count_hit (hrule : 0 < rule.maxCount) (now : Nat) (window : Option FixedWindow)
    : 1 ≤ (hit rule now window).count :=
  Nat.le_min.2 ⟨Nat.le_add_left _ _, hrule⟩

theorem run_of_expired {now : Nat} {times : List Nat} {window : FixedWindow}
    (h : rule.length < now - window.start)
    : run rule (some window) (now :: times) = run rule none (now :: times) := by
  rw [run, run, hit_of_expired h]

section Bound

variable {start : Nat} {times : List Nat}

theorem allowed_cons_of_not_mem {now : Nat} {exceeded : Bool} {hits : List (Nat × Bool)}
    (h : ¬ (start ≤ now ∧ now ≤ start + rule.length))
    : allowed rule start ((now, exceeded) :: hits) = allowed rule start hits := by
  rw [allowed, List.countP_cons_of_neg, allowed]
  simpa using fun h₁ h₂ => absurd ⟨h₁, h₂⟩ h

theorem allowed_le_cons (hit : Nat × Bool) (hits : List (Nat × Bool))
    : allowed rule start hits ≤ allowed rule start (hit :: hits) := by
  rw [allowed, allowed, List.countP_cons]
  exact Nat.le_add_right _ _

theorem allowed_cons_le (now : Nat) (exceeded : Bool) (hits : List (Nat × Bool))
    : allowed rule start ((now, exceeded) :: hits) ≤ allowed rule start hits + if exceeded then 0 else 1 := by
  rw [allowed, List.countP_cons, allowed]
  cases exceeded <;> simp
  split <;> omega

theorem allowed_run_of_late {window : Option FixedWindow} (h : ∀ now ∈ times, start + rule.length < now)
    : allowed rule start (run rule window times) = 0 := by
  induction times generalizing window with
  | nil => rfl
  | cons now times ih =>
    have hlate := h now (by simp)
    rw [run, allowed_cons_of_not_mem (by omega), ih fun now hnow => h now (by simp [hnow])]

theorem allowed_cons_hit_le (hrule : rule.limit < rule.maxCount) {now : Nat} (count rest : Nat)
    {hits : List (Nat × Bool)}
    (hrest : allowed rule start hits ≤ rule.limit - min (count + 1) rule.maxCount + rest)
    : allowed rule start ((now, decide (rule.limit < min (count + 1) rule.maxCount)) :: hits)
        ≤ rule.limit - count + rest := by
  refine Nat.le_trans (allowed_cons_le ..) ?_
  by_cases hover : rule.limit < min (count + 1) rule.maxCount
  . rw [decide_eq_true hover, if_pos rfl]
    omega
  . rw [decide_eq_false hover, if_neg Bool.false_ne_true]
    omega

theorem allowed_run_le_of_le (hrule : rule.limit < rule.maxCount) {window : FixedWindow}
    (hstart : start ≤ window.start) (htimes : times.Pairwise (· ≤ ·))
    : allowed rule start (run rule (some window) times) ≤ rule.limit - window.count := by
  induction times generalizing window with
  | nil => exact Nat.zero_le _
  | cons now times ih =>
    obtain ⟨hnext, htimes⟩ := List.pairwise_cons.1 htimes
    by_cases hopen : now - window.start ≤ rule.length
    . rw [run, hit_of_open hopen]
      exact allowed_cons_hit_le hrule window.count 0 (ih hstart htimes)
    . rw [allowed_run_of_late]
      . exact Nat.zero_le _
      . intro now' hnow'
        have hle : now ≤ now' := by
          rcases List.mem_cons.1 hnow' with rfl | hmem
          . exact Nat.le_refl _
          . exact hnext now' hmem
        omega

theorem allowed_run_none_le (hrule : rule.limit < rule.maxCount) {now : Nat} (hstart : start ≤ now)
    (htimes : (now :: times).Pairwise (· ≤ ·))
    : allowed rule start (run rule none (now :: times)) ≤ rule.limit := by
  rw [run, hit_none]
  exact allowed_cons_hit_le hrule 0 0
    (allowed_run_le_of_le hrule hstart (List.pairwise_cons.1 htimes).2)

theorem allowed_run_le_of_mem (hrule : rule.limit < rule.maxCount) (window : FixedWindow)
    (htimes : times.Pairwise (· ≤ ·)) (hstart : ∀ now ∈ times, start ≤ now)
    : allowed rule start (run rule (some window) times) ≤ rule.limit - window.count + rule.limit := by
  induction times generalizing window with
  | nil => exact Nat.zero_le _
  | cons now times ih =>
    by_cases hopen : now - window.start ≤ rule.length
    . rw [run, hit_of_open hopen]
      exact allowed_cons_hit_le hrule _ _ (ih _ (List.pairwise_cons.1 htimes).2 fun now hnow =>
        hstart now (by simp [hnow]))
    . rw [run_of_expired (Nat.lt_of_not_le hopen)]
      exact Nat.le_trans (allowed_run_none_le hrule (hstart now (by simp)) htimes) (Nat.le_add_left _ _)

theorem allowed_run_le (hrule : rule.limit < rule.maxCount) (window : Option FixedWindow)
    (htimes : times.Pairwise (· ≤ ·))
    : allowed rule start (run rule window times) ≤ 2 * rule.limit := by
  induction times generalizing window with
  | nil => exact Nat.zero_le _
  | cons now times ih =>
    obtain ⟨hnext, htimes'⟩ := List.pairwise_cons.1 htimes
    by_cases hstart : start ≤ now
    . cases window with
      | none => exact Nat.le_trans (allowed_run_none_le hrule hstart htimes) (by omega)
      | some window =>
        refine Nat.le_trans (allowed_run_le_of_mem hrule window htimes fun now' hnow' => ?_) (by omega)
        rcases List.mem_cons.1 hnow' with rfl | hmem
        . exact hstart
        . exact Nat.le_trans hstart (hnext now' hmem)
    . rw [run, allowed_cons_of_not_mem (by omega)]
      exact ih _ htimes'

theorem allowed_run_of_maxCount_le (hrule : rule.maxCount ≤ rule.limit) (window : Option FixedWindow)
    (htimes : ∀ now ∈ times, start ≤ now ∧ now ≤ start + rule.length)
    : allowed rule start (run rule window times) = times.length := by
  induction times generalizing window with
  | nil => rfl
  | cons now times ih =>
    have hallowed : ¬ rule.limit < (hit rule now window).count := by
      rw [hit]
      dsimp only
      omega
    have hrest := ih (some (hit rule now window)) fun now hnow => htimes now (by simp [hnow])
    rw [allowed] at hrest
    rw [run, allowed, List.countP_cons_of_pos, hrest, List.length_cons]
    simpa [hallowed] using htimes now (by simp)

end Bound

end FixedWindow
