import Mathlib.Data.List.Induction
import Mathlib.Data.List.Pairwise

/-!
This module contains sequences of calls to a stateful component: the log of their answers, and the rules
by which facts about single calls become facts about whole logs, also under a clock that the calls read.
-/

namespace Calls

section Fallible

variable {ε σ α β : Type}

/--
The answer of a computation, and the state that it leaves behind, also when it fails.
-/
def outcome (x : EStateM ε σ α) (s : σ) : Except ε α × σ :=
  match x s with
  | .ok a s' => (.ok a, s')
  | .error err s' => (.error err, s')

def final (x : EStateM ε σ α) (s : σ) : σ := (outcome x s).2

theorem outcome_of_ok {x : EStateM ε σ α} {s s' : σ} {a : α} (h : x s = .ok a s')
    : outcome x s = (.ok a, s') := by
  rw [outcome, h]

theorem outcome_of_error {x : EStateM ε σ α} {s s' : σ} {err : ε} (h : x s = .error err s')
    : outcome x s = (.error err, s') := by
  rw [outcome, h]

theorem bind_eq_ok {x : EStateM ε σ α} {f : α → EStateM ε σ β} {s s' : σ} {b : β}
    : (x >>= f) s = .ok b s' ↔ ∃ a s₁, x s = .ok a s₁ ∧ f a s₁ = .ok b s' := by
  show EStateM.bind x f s = _ ↔ _
  rw [EStateM.bind]
  cases x s <;> simp

/--
Whatever a computation does, it moves the state along `R`.
-/
def Within (R : σ → σ → Prop) (x : EStateM ε σ α) : Prop := ∀ s, R s (final x s)

namespace Within

variable {R : σ → σ → Prop}

theorem pure (hrefl : ∀ s, R s s) (a : α) : Within R (Pure.pure a : EStateM ε σ α) := hrefl

theorem throw (hrefl : ∀ s, R s s) (err : ε) : Within R (throw err : EStateM ε σ α) := hrefl

theorem bind (htrans : ∀ {s₁ s₂ s₃}, R s₁ s₂ → R s₂ s₃ → R s₁ s₃) {x : EStateM ε σ α}
    {f : α → EStateM ε σ β} (hx : Within R x) (hf : ∀ a, Within R (f a)) : Within R (x >>= f) := by
  intro s
  have hstep := hx s
  show R s (final (EStateM.bind x f) s)
  rw [final, outcome] at hstep
  rw [final, outcome, EStateM.bind]
  cases hxs : x s with
  | ok a s₁ =>
    rw [hxs] at hstep
    exact htrans hstep (hf a s₁)
  | error err s₁ =>
    rw [hxs] at hstep
    exact hstep

end Within

/--
Where a computation fails, it has moved the state along `R`.
-/
def FailsWithin (R : σ → σ → Prop) (x : EStateM ε σ α) : Prop := ∀ s err s', x s = .error err s' → R s s'

theorem bind_eq_error {x : EStateM ε σ α} {s s' : σ} {err : ε} (h : x s = .error err s') (f : α → EStateM ε σ β)
    : (x >>= f) s = .error err s' := by
  show EStateM.bind x f s = _
  rw [EStateM.bind, h]

theorem Within.final_of_ok {R : σ → σ → Prop} {x : EStateM ε σ α} {s s' : σ} {a : α} (hx : Within R x)
    (h : x s = .ok a s') : R s s' := by
  have hstep := hx s
  rwa [final, outcome_of_ok h] at hstep

theorem FailsWithin.bind {R : σ → σ → Prop} (htrans : ∀ {s₁ s₂ s₃}, R s₁ s₂ → R s₂ s₃ → R s₁ s₃)
    {x : EStateM ε σ α} {f : α → EStateM ε σ β} (hx : Within R x) (hf : ∀ a, FailsWithin R (f a))
    : FailsWithin R (x >>= f) := by
  intro s err s' h
  have hstep := hx s
  rw [final, outcome] at hstep
  have hbind : EStateM.bind x f s = .error err s' := h
  rw [EStateM.bind] at hbind
  cases hxs : x s with
  | ok a s₁ =>
    rw [hxs] at hstep hbind
    exact htrans hstep (hf a s₁ err s' hbind)
  | error err' s₁ =>
    rw [hxs] at hstep hbind
    exact (EStateM.Result.error.inj hbind).2 ▸ hstep

end Fallible

variable {ι ο σ : Type} {step : ι → σ → ο × σ}

/--
Play calls one after the other and log each of them with its answer.
-/
def play (step : ι → σ → ο × σ) : List ι → σ → List (ι × ο) × σ
  | [], s => ([], s)
  | call :: calls, s =>
    let (o, s') := step call s
    let (log, s'') := play step calls s'
    ((call, o) :: log, s'')

theorem play_nil (s : σ) : play step [] s = ([], s) := rfl

theorem play_cons (call : ι) (calls : List ι) (s : σ)
    : play step (call :: calls) s
        = ((call, (step call s).1) :: (play step calls (step call s).2).1,
            (play step calls (step call s).2).2) := rfl

theorem play_append (calls calls' : List ι) (s : σ)
    : play step (calls ++ calls') s
        = ((play step calls s).1 ++ (play step calls' (play step calls s).2).1,
            (play step calls' (play step calls s).2).2) := by
  induction calls generalizing s with
  | nil => rfl
  | cons call calls ih => rw [List.cons_append, play_cons, play_cons, ih, List.cons_append]

theorem play_concat (calls : List ι) (call : ι) (s : σ)
    : play step (calls ++ [call]) s
        = ((play step calls s).1 ++ [(call, (step call (play step calls s).2).1)],
            (step call (play step calls s).2).2) := by
  rw [play_append]
  rfl

theorem length_play (calls : List ι) (s : σ) : (play step calls s).1.length = calls.length := by
  induction calls generalizing s with
  | nil => rfl
  | cons call calls ih => rw [play_cons, List.length_cons, List.length_cons, ih]

theorem exists_of_play_cons {calls : List ι} {s : σ} {entry : ι × ο} {log : List (ι × ο)}
    (h : (play step calls s).1 = entry :: log)
    : ∃ call rest, calls = call :: rest ∧ entry = (call, (step call s).1)
        ∧ (play step rest (step call s).2).1 = log := by
  cases calls with
  | nil => contradiction
  | cons call rest =>
    rw [play_cons] at h
    obtain ⟨hentry, hlog⟩ := List.cons.inj h
    exact ⟨call, rest, rfl, hentry.symm, hlog⟩

theorem exists_of_play_append {calls : List ι} {s : σ} {log log' : List (ι × ο)}
    (h : (play step calls s).1 = log ++ log')
    : ∃ before after, calls = before ++ after ∧ (play step before s).1 = log
        ∧ (play step after (play step before s).2).1 = log' := by
  induction log generalizing calls s with
  | nil => exact ⟨[], calls, rfl, rfl, h⟩
  | cons entry log ih =>
    obtain ⟨call, rest, rfl, rfl, hrest⟩ := exists_of_play_cons h
    obtain ⟨before, after, rfl, hbefore, hafter⟩ := ih hrest
    refine ⟨call :: before, after, rfl, ?_, hafter⟩
    rw [play_cons, hbefore]

theorem exists_of_mem_play {calls : List ι} {s : σ} {call : ι} {answer : ο} (h : (call, answer) ∈ (play step calls s).1)
    : call ∈ calls ∧ ∃ s', answer = (step call s').1 := by
  induction calls generalizing s with
  | nil => contradiction
  | cons call' calls ih =>
    rw [play_cons] at h
    rcases List.mem_cons.1 h with heq | hmem
    . obtain ⟨rfl, rfl⟩ := Prod.mk.inj heq
      exact ⟨List.mem_cons_self, s, rfl⟩
    . obtain ⟨hcall, hanswer⟩ := ih hmem
      exact ⟨.tail _ hcall, hanswer⟩

theorem play_induction (calls : List ι) (s : σ) (I : List (ι × ο) → σ → Prop) (hnil : I [] s)
    (hstep : ∀ log s call, call ∈ calls → I log s →
      I (log ++ [(call, (step call s).1)]) (step call s).2)
    : I (play step calls s).1 (play step calls s).2 := by
  induction calls using List.reverseRecOn with
  | nil => exact hnil
  | append_singleton calls call ih =>
    rw [play_concat]
    refine hstep _ _ _ (by simp) (ih ?_)
    intro log s call hcall
    exact hstep log s call (List.mem_append_left _ hcall)

section Clock

variable {times : ι → List Nat}

/--
The readings of the clock that the calls make do not decrease.
-/
def Clocked (times : ι → List Nat) (calls : List ι) : Prop := (calls.flatMap times).Pairwise (· ≤ ·)

instance (times : ι → List Nat) (calls : List ι) : Decidable (Clocked times calls) :=
  inferInstanceAs (Decidable (List.Pairwise _ _))

theorem play_clocked_induction (calls : List ι) (s : σ) (hclock : Clocked times calls)
    (I : Nat → List (ι × ο) → σ → Prop) (hnil : I 0 [] s)
    (hstep : ∀ t log s call, call ∈ calls → (t :: times call).Pairwise (· ≤ ·) → I t log s →
      ∀ t', t' ∈ t :: times call → (∀ u ∈ t :: times call, u ≤ t') →
      I t' (log ++ [(call, (step call s).1)]) (step call s).2)
    : ∃ t, I t (play step calls s).1 (play step calls s).2 := by
  suffices h : ∃ t, (t = 0 ∨ t ∈ calls.flatMap times) ∧ (∀ u ∈ calls.flatMap times, u ≤ t)
      ∧ I t (play step calls s).1 (play step calls s).2 from ⟨h.choose, h.choose_spec.2.2⟩
  induction calls using List.reverseRecOn with
  | nil => exact ⟨0, .inl rfl, by simp, hnil⟩
  | append_singleton calls call ih =>
    rw [Clocked, List.flatMap_append, List.pairwise_append] at hclock
    simp only [List.flatMap_singleton] at hclock
    obtain ⟨hbefore, hcall, hacross⟩ := hclock
    obtain ⟨t, horigin, hlatest, hinv⟩ := ih hbefore fun t log s c hc =>
      hstep t log s c (List.mem_append_left _ hc)
    have hsorted : (t :: times call).Pairwise (· ≤ ·) := by
      refine List.pairwise_cons.2 ⟨fun u hu => ?_, hcall⟩
      rcases horigin with rfl | ht
      . exact Nat.zero_le u
      . exact hacross t ht u hu
    -- the last reading of the call, or `t` when it makes none, is the latest one
    obtain ⟨t', hmem, hmax⟩ : ∃ t' ∈ t :: times call, ∀ u ∈ t :: times call, u ≤ t' := by
      refine ⟨(t :: times call).getLast (by simp), List.getLast_mem _, ?_⟩
      intro u hu
      exact hsorted.rel_getLast hu
    rw [List.flatMap_append, List.flatMap_singleton]
    refine ⟨t', ?_, ?_, ?_⟩
    . rcases List.mem_cons.1 hmem with rfl | hmem
      . exact horigin.imp_right fun ht => List.mem_append_left _ ht
      . exact .inr (List.mem_append_right _ hmem)
    . intro u hu
      rcases List.mem_append.1 hu with hu | hu
      . exact Nat.le_trans (hlatest u hu) (hmax t List.mem_cons_self)
      . exact hmax u (.tail _ hu)
    . rw [play_concat]
      exact hstep t _ _ call (by simp) hsorted hinv t' hmem hmax

/--
A call of a kind succeeds at most once when its first success makes the state one in which no later call
of the kind succeeds, and which no call leaves again. Only the calls that are answered as `admits` says count.
-/
theorem countP_play_le_one_of_log (calls : List ι) (s : σ) (hclock : Clocked times calls)
    (succeeds : ι × ο → Bool) (admits : ι × ο → Prop) (Spent : Nat → σ → Prop)
    (hlog : ∀ entry ∈ (play step calls s).1, admits entry)
    (hspend : ∀ t s call, call ∈ calls → (times call).Pairwise (· ≤ ·) → (∀ u ∈ times call, u ≤ t) →
      succeeds (call, (step call s).1) → Spent t (step call s).2)
    (hkeep : ∀ t t' s call, call ∈ calls → admits (call, (step call s).1) →
      (t :: times call).Pairwise (· ≤ ·) → (∀ u ∈ t :: times call, u ≤ t') → Spent t s →
      ¬ succeeds (call, (step call s).1) ∧ Spent t' (step call s).2)
    : (play step calls s).1.countP succeeds ≤ 1 := by
  suffices h : ∃ t, (∀ entry ∈ (play step calls s).1, admits entry) →
      (play step calls s).1.countP succeeds ≤ 1
        ∧ ((play step calls s).1.countP succeeds = 0 ∨ Spent t (play step calls s).2) from
    (h.choose_spec hlog).1
  refine play_clocked_induction calls s hclock
    (fun t log s => (∀ entry ∈ log, admits entry) →
      log.countP succeeds ≤ 1 ∧ (log.countP succeeds = 0 ∨ Spent t s))
    (fun _ => ⟨by simp, .inl rfl⟩) ?_
  intro t log s call hcall hsorted hinv t' _ hmax hlog
  obtain ⟨hbefore, hadmits⟩ := List.forall_mem_append.1 hlog
  rw [List.countP_append, List.countP_singleton]
  obtain ⟨hle, hfresh | hspent⟩ := hinv hbefore
  . rw [hfresh]
    split
    next hnow =>
      refine ⟨Nat.le_refl _, .inr (hspend t' s call hcall (List.pairwise_cons.1 hsorted).2 ?_ hnow)⟩
      intro u hu
      exact hmax u (.tail _ hu)
    next => exact ⟨Nat.zero_le _, .inl rfl⟩
  . obtain ⟨hnot, hspent'⟩ :=
      hkeep t t' s call hcall (hadmits _ (List.mem_singleton_self _)) hsorted hmax hspent
    rw [if_neg hnot]
    exact ⟨hle, .inr hspent'⟩

theorem countP_play_le_one (calls : List ι) (s : σ) (hclock : Clocked times calls)
    (succeeds : ι × ο → Bool) (Spent : Nat → σ → Prop)
    (hspend : ∀ t s call, call ∈ calls → (times call).Pairwise (· ≤ ·) → (∀ u ∈ times call, u ≤ t) →
      succeeds (call, (step call s).1) → Spent t (step call s).2)
    (hkeep : ∀ t t' s call, call ∈ calls → (t :: times call).Pairwise (· ≤ ·) →
      (∀ u ∈ t :: times call, u ≤ t') → Spent t s →
      ¬ succeeds (call, (step call s).1) ∧ Spent t' (step call s).2)
    : (play step calls s).1.countP succeeds ≤ 1 :=
  countP_play_le_one_of_log calls s hclock succeeds (fun _ => True) Spent (fun _ _ => trivial) hspend
    (fun t t' s call hcall _ => hkeep t t' s call hcall)

end Clock

end Calls
