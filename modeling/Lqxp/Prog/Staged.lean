import Lqxp.Prog.Nested

/-!
This module contains changes to a state that are made one after the other, up to the first that fails: which of
them a run has made, and what it has done to a state whose parts they clear one by one.
-/

namespace Prog

variable {ι ε σ ℓ ξ : Type}

/--
Changes to a state, each one a step that may fail and changes nothing then.
-/
structure Stages (ι ε σ ℓ ξ : Type) where
  fails : ε → Bool
  err : ξ
  quiet : ℓ
  label : ι → ℓ
  change : ι → σ → σ

namespace Stages

def stage (S : Stages ι ε σ ℓ ξ) (i : ι) : ExceptT ξ (Prog ε σ ℓ) Unit :=
  ExceptT.mk <| .atom fun e s => if S.fails e then (.error S.err, S.quiet, s) else (.ok (), S.label i, S.change i s)

def inOrder (S : Stages ι ε σ ℓ ξ) : List ι → ExceptT ξ (Prog ε σ ℓ) Unit
  | [] => pure ()
  | i :: is => do
    S.stage i
    S.inOrder is

variable (S : Stages ι ε σ ℓ ξ) {s s' : σ} {tr : List (ε × ℓ)} {r : Except ξ Unit}

def succeeded (tr : List (ε × ℓ)) : Nat := (tr.takeWhile fun entry => !S.fails entry.1).length

def Interrupted (tr : List (ε × ℓ)) : Prop := ∃ entry ∈ tr, S.fails entry.1 = true

variable {S}

theorem succeeded_cons_of_fails {entry : ε × ℓ} (h : S.fails entry.1 = true) : S.succeeded (entry :: tr) = 0 := by
  rw [succeeded, List.takeWhile_cons_of_neg (by simp [h]), List.length_nil]

theorem succeeded_cons {entry : ε × ℓ} (h : S.fails entry.1 = false)
    : S.succeeded (entry :: tr) = S.succeeded tr + 1 := by
  rw [succeeded, List.takeWhile_cons_of_pos (by simp [h]), List.length_cons, succeeded]

theorem interrupted_cons {entry : ε × ℓ} (h : S.fails entry.1 = false)
    : S.Interrupted (entry :: tr) ↔ S.Interrupted tr := by
  constructor
  . rintro ⟨failing, hmem, hfails⟩
    rcases List.mem_cons.1 hmem with rfl | hmem
    . exact absurd hfails (by simp [h])
    . exact ⟨failing, hmem, hfails⟩
  . rintro ⟨failing, hmem, hfails⟩
    exact ⟨failing, List.mem_cons_of_mem entry hmem, hfails⟩

theorem trace_stage {i : ι} (h : Trace (S.stage i).run s tr r s')
    : ∃ e : ε, (S.fails e = true ∧ tr = [(e, S.quiet)] ∧ r = .error S.err ∧ s' = s)
        ∨ (S.fails e = false ∧ tr = [(e, S.label i)] ∧ r = .ok () ∧ s' = S.change i s) := by
  obtain ⟨e, rfl, rfl, rfl⟩ := trace_atom_iff.1 h
  refine ⟨e, ?_⟩
  cases hfails : S.fails e with
  | true => exact .inl ⟨rfl, rfl, rfl, rfl⟩
  | false => exact .inr ⟨rfl, rfl, rfl, rfl⟩

theorem trace_inOrder {is : List ι} (h : Trace (S.inOrder is).run s tr r s')
    : s' = (is.take (S.succeeded tr)).foldl (fun s i => S.change i s) s
        ∧ ((r = .ok () ∧ ¬ S.Interrupted tr ∧ S.succeeded tr = is.length)
          ∨ (r = .error S.err ∧ S.Interrupted tr ∧ S.succeeded tr < is.length)) := by
  induction is generalizing s tr with
  | nil =>
    obtain ⟨rfl, rfl, rfl⟩ := trace_run_pure_iff.1 h
    exact ⟨rfl, .inl ⟨rfl, fun ⟨_, hmem, _⟩ => (List.not_mem_nil hmem).elim, rfl⟩⟩
  | cons i is ih =>
    obtain ⟨err, rfl, hstage⟩ | ⟨u, s₁, tr₁, tr₂, hstage, hrest, rfl⟩ := trace_run_bind_iff.1 h
    . obtain ⟨e, ⟨hfails, rfl, herr, rfl⟩ | ⟨-, -, hok, -⟩⟩ := trace_stage hstage
      . rw [succeeded_cons_of_fails hfails]
        exact ⟨rfl, .inr ⟨herr, ⟨_, List.mem_cons_self, hfails⟩, Nat.succ_pos _⟩⟩
      . contradiction
    . obtain ⟨e, ⟨-, -, herr, -⟩ | ⟨hfails, rfl, -, rfl⟩⟩ := trace_stage hstage
      . contradiction
      . obtain ⟨hstate, hresult⟩ := ih hrest
        rw [List.singleton_append, succeeded_cons hfails, interrupted_cons hfails, List.length_cons, List.take_succ_cons,
          List.foldl_cons, Nat.add_right_cancel_iff, Nat.add_lt_add_iff_right]
        exact ⟨hstate, hresult⟩

/--
Every change clears one part of the state and leaves the others alone.
-/
structure Clears (S : Stages ι ε σ ℓ ξ) {τ : ι → Type} (part : (i : ι) → σ → τ i) (gone : (i : ι) → τ i) : Prop where
  self : ∀ i s, part i (S.change i s) = gone i
  other : ∀ i j s, i ≠ j → part i (S.change j s) = part i s

namespace Clears

variable {τ : ι → Type} {part : (i : ι) → σ → τ i} {gone : (i : ι) → τ i}

theorem foldl [DecidableEq ι] (h : S.Clears part gone) (i : ι) (is : List ι) (s : σ)
    : part i (is.foldl (fun s i => S.change i s) s) = if i ∈ is then gone i else part i s := by
  induction is generalizing s with
  | nil => rfl
  | cons j is ih =>
    rw [List.foldl_cons, ih]
    by_cases hmem : i ∈ is
    . rw [if_pos hmem, if_pos (List.mem_cons_of_mem j hmem)]
    . rw [if_neg hmem]
      by_cases hsame : i = j
      . rw [hsame, h.self, if_pos List.mem_cons_self]
      . rw [h.other i j s hsame, if_neg (fun hcons => (List.mem_cons.1 hcons).elim hsame hmem)]

theorem foldl_unchanged_iff [DecidableEq ι] (h : S.Clears part gone) (is : List ι) (s : σ)
    : (∀ i, part i (is.foldl (fun s i => S.change i s) s) = part i s) ↔ ∀ i ∈ is, part i s = gone i := by
  constructor
  . intro hsame i hmem
    rw [← hsame i, h.foldl, if_pos hmem]
  . intro hclear i
    rw [h.foldl]
    by_cases hmem : i ∈ is
    . rw [if_pos hmem, hclear i hmem]
    . rw [if_neg hmem]

end Clears

end Stages

section Covers

variable {σ' α β : Type}

/--
A program over the whole of a state makes the steps of one over a part of it.
-/
def Covers (get : σ' → σ) : Prog ε σ' ℓ α → Prog ε σ ℓ α → Prop
  | .done a, .done b => a = b
  | .step act next, .step act' next' =>
    ∀ e s, (act e s).1 = (act' e (get s)).1 ∧ get (act e s).2 = (act' e (get s)).2
      ∧ Covers get (next e s) (next' e (get s))
  | .done _, .step .. | .step .., .done _ => False

namespace Covers

variable {get : σ' → σ} {p : Prog ε σ' ℓ α} {q : Prog ε σ ℓ α}

theorem trace (h : Covers get p q) {s s' : σ'} {tr : List (ε × ℓ)} {a : α} (run : Trace p s tr a s')
    : Trace q (get s) tr a (get s') := by
  induction p generalizing q s tr with
  | done b =>
    obtain ⟨rfl, rfl, rfl⟩ := trace_done_iff.1 run
    cases q with
    | done c =>
      obtain rfl : a = c := h
      exact .done _ _
    | step act next => exact h.elim
  | step act next ih =>
    cases q with
    | done c => exact h.elim
    | step act' next' =>
      obtain ⟨e, rest, rfl, hrest⟩ := trace_step_iff.1 run
      obtain ⟨hlabel, hstate, hcovers⟩ := h e s
      have hrun := ih _ _ hcovers hrest
      rw [hstate] at hrun
      rw [hlabel]
      exact .step e hrun

theorem bind {f : α → Prog ε σ' ℓ β} {g : α → Prog ε σ ℓ β} (h : Covers get p q)
    (hrest : ∀ a, Covers get (f a) (g a)) : Covers get (p >>= f) (q >>= g) := by
  induction p generalizing q with
  | done a =>
    cases q with
    | done b =>
      obtain rfl : a = b := h
      exact hrest a
    | step act next => exact h.elim
  | step act next ih =>
    cases q with
    | done b => exact h.elim
    | step act' next' =>
      intro e s
      obtain ⟨hlabel, hstate, hcovers⟩ := h e s
      exact ⟨hlabel, hstate, ih _ _ hcovers⟩

theorem run_bind {p : ExceptT ξ (Prog ε σ' ℓ) α} {q : ExceptT ξ (Prog ε σ ℓ) α} {f : α → ExceptT ξ (Prog ε σ' ℓ) β}
    {g : α → ExceptT ξ (Prog ε σ ℓ) β} (h : Covers get p.run q.run) (hrest : ∀ a, Covers get (f a).run (g a).run)
    : Covers get (p >>= f).run (q >>= g).run := by
  refine h.bind fun r => ?_
  cases r with
  | ok a => exact hrest a
  | error err => exact rfl

theorem bind_done {f : α → Prog ε σ' ℓ α} (h : Covers get p q) (hf : ∀ a, f a = .done a) : Covers get (p >>= f) q := by
  induction p generalizing q with
  | done a =>
    rw [done_bind, hf]
    exact h
  | step act next ih =>
    cases q with
    | done b => exact h.elim
    | step act' next' =>
      intro e s
      obtain ⟨hlabel, hstate, hcovers⟩ := h e s
      exact ⟨hlabel, hstate, ih _ _ hcovers⟩

theorem zoom {v : View ε σ ℓ ε σ' ℓ} (henv : ∀ e, v.env e = e) (htag : ∀ s l, v.tag s l = l) (p : Prog ε σ ℓ α)
    : Covers v.get (p.zoom v) p := by
  induction p with
  | done a => exact rfl
  | step act next ih =>
    intro e s
    dsimp only [Prog.zoom]
    rw [henv]
    exact ⟨htag _ _, v.get_put _ _, ih _ _⟩

end Covers

end Covers

end Prog
