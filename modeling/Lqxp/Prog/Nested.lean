import Lqxp.Prog.Emits

/-!
This module contains uninterrupted runs of programs inside others: those over a part of a larger state, and those
that may fail.
-/

namespace Prog

variable {ε σ ℓ ε' σ' ℓ' τ α β ξ : Type}

section Zoomed

variable (v : View ε σ ℓ ε' σ' ℓ')

theorem zoom_atom (f : ε → σ → α × ℓ × σ)
    : (atom f).zoom v
        = atom fun e s => ((f (v.env e) (v.get s)).1, v.tag s (f (v.env e) (v.get s)).2.1,
            v.put (f (v.env e) (v.get s)).2.2 s) := rfl

variable {v}

theorem Trace.of_zoom {p : Prog ε σ ℓ α} {s s' : σ'} {tr : List (ε' × ℓ')} {a : α}
    (h : Trace (p.zoom v) s tr a s')
    : ∃ tr₀, Trace p (v.get s) tr₀ a (v.get s')
        ∧ List.Forall₂ (fun x y => y.1 = v.env x.1 ∧ ∃ t, x.2 = v.tag t y.2) tr tr₀ := by
  induction p generalizing s tr with
  | done b =>
    obtain ⟨rfl, rfl, rfl⟩ := trace_done_iff.1 h
    exact ⟨[], .done _ _, .nil⟩
  | step act next ih =>
    obtain ⟨e, rest, rfl, hrest⟩ := trace_step_iff.1 h
    obtain ⟨tr₀, hrun, hsame⟩ := ih _ _ hrest
    rw [v.get_put] at hrun
    exact ⟨_, .step (v.env e) hrun, .cons ⟨rfl, s, rfl⟩ hsame⟩

namespace Preserves

theorem zoom {w : σ → τ} {p : Prog ε σ ℓ α} (hp : Preserves w p) : Preserves (fun s => w (v.get s)) (p.zoom v) := by
  intro s tr a s' h
  obtain ⟨tr₀, hrun, -⟩ := h.of_zoom
  exact hp _ _ _ _ hrun

theorem beside {w : σ' → τ} (hput : ∀ s s', w (v.put s s') = w s') (p : Prog ε σ ℓ α)
    : Preserves w (p.zoom v) := by
  induction p with
  | done a => exact .pure a
  | step act next ih =>
    intro s tr a s' h
    obtain ⟨e, rest, rfl, hrest⟩ := trace_step_iff.1 h
    exact (ih _ _ _ _ _ _ hrest).trans (hput _ _)

end Preserves

end Zoomed

section Fallible

variable {s s' : σ} {tr : List (ε × ℓ)}

theorem trace_run_pure_iff {a : α} {r : Except ξ α}
    : Trace (pure a : ExceptT ξ (Prog ε σ ℓ) α).run s tr r s' ↔ tr = [] ∧ r = .ok a ∧ s' = s :=
  trace_done_iff

theorem trace_run_throw_iff {err : ξ} {r : Except ξ α}
    : Trace (throw err : ExceptT ξ (Prog ε σ ℓ) α).run s tr r s' ↔ tr = [] ∧ r = .error err ∧ s' = s :=
  trace_done_iff

theorem trace_run_lift_iff {p : Prog ε σ ℓ α} {r : Except ξ α}
    : Trace (ExceptT.lift p : ExceptT ξ (Prog ε σ ℓ) α).run s tr r s' ↔ ∃ a, r = .ok a ∧ Trace p s tr a s' := by
  constructor
  . intro h
    obtain ⟨a, s₁, tr₁, tr₂, hrun, hdone, rfl⟩ := trace_bind_iff.1 h
    obtain ⟨rfl, rfl, rfl⟩ := trace_done_iff.1 hdone
    exact ⟨a, rfl, by rwa [List.append_nil]⟩
  . rintro ⟨a, rfl, h⟩
    exact trace_bind_iff.2 ⟨a, s', tr, [], h, .done _ _, (List.append_nil _).symm⟩

theorem trace_run_bind_iff {p : ExceptT ξ (Prog ε σ ℓ) α} {f : α → ExceptT ξ (Prog ε σ ℓ) β} {r : Except ξ β}
    : Trace (p >>= f).run s tr r s'
        ↔ (∃ err, r = .error err ∧ Trace p.run s tr (.error err) s')
          ∨ ∃ a s₁ tr₁ tr₂, Trace p.run s tr₁ (.ok a) s₁ ∧ Trace (f a).run s₁ tr₂ r s' ∧ tr = tr₁ ++ tr₂ := by
  constructor
  . intro h
    obtain ⟨r₁, s₁, tr₁, tr₂, hrun, hrest, rfl⟩ := trace_bind_iff.1 h
    cases r₁ with
    | error err =>
      obtain ⟨rfl, rfl, rfl⟩ := trace_done_iff.1 hrest
      exact .inl ⟨err, rfl, by rwa [List.append_nil]⟩
    | ok a => exact .inr ⟨a, s₁, tr₁, tr₂, hrun, hrest, rfl⟩
  . rintro (⟨err, rfl, hrun⟩ | ⟨a, s₁, tr₁, tr₂, hrun, hrest, rfl⟩)
    . exact trace_bind_iff.2 ⟨.error err, s', tr, [], hrun, .done _ _, (List.append_nil _).symm⟩
    . exact trace_bind_iff.2 ⟨.ok a, s₁, tr₁, tr₂, hrun, hrest, rfl⟩

theorem trace_run_lift_bind_iff {p : Prog ε σ ℓ α} {f : α → ExceptT ξ (Prog ε σ ℓ) β} {r : Except ξ β}
    : Trace (ExceptT.lift p >>= f).run s tr r s'
        ↔ ∃ a s₁ tr₁ tr₂, Trace p s tr₁ a s₁ ∧ Trace (f a).run s₁ tr₂ r s' ∧ tr = tr₁ ++ tr₂ := by
  rw [trace_run_bind_iff]
  constructor
  . rintro (⟨err, -, hlift⟩ | ⟨a, s₁, tr₁, tr₂, hlift, hrest, rfl⟩)
    . obtain ⟨_, herr, -⟩ := trace_run_lift_iff.1 hlift
      contradiction
    . obtain ⟨a', heq, hrun⟩ := trace_run_lift_iff.1 hlift
      obtain rfl := Except.ok.inj heq
      exact ⟨a, s₁, tr₁, tr₂, hrun, hrest, rfl⟩
  . rintro ⟨a, s₁, tr₁, tr₂, hrun, hrest, rfl⟩
    exact .inr ⟨a, s₁, tr₁, tr₂, trace_run_lift_iff.2 ⟨a, rfl, hrun⟩, hrest, rfl⟩

namespace Preserves

variable {v : σ → τ}

theorem run_bind {p : ExceptT ξ (Prog ε σ ℓ) α} {f : α → ExceptT ξ (Prog ε σ ℓ) β} (hp : Preserves v p.run)
    (hf : ∀ a, Preserves v (f a).run) : Preserves v (p >>= f).run := by
  refine .bind hp fun r => ?_
  cases r with
  | ok a => exact hf a
  | error err => exact .pure _

theorem run_lift {p : Prog ε σ ℓ α} (hp : Preserves v p)
    : Preserves v (ExceptT.lift p : ExceptT ξ (Prog ε σ ℓ) α).run := .bind hp fun _ => .pure _

end Preserves

namespace Emits

variable {good : ℓ → Prop}

theorem run_bind {p : ExceptT ξ (Prog ε σ ℓ) α} {f : α → ExceptT ξ (Prog ε σ ℓ) β} (hp : Emits good p.run)
    (hf : ∀ a, Emits good (f a).run) : Emits good (p >>= f).run := by
  refine .bind hp fun r => ?_
  cases r with
  | ok a => exact hf a
  | error err => exact .pure _

theorem run_lift {p : Prog ε σ ℓ α} (hp : Emits good p)
    : Emits good (ExceptT.lift p : ExceptT ξ (Prog ε σ ℓ) α).run := .bind hp fun _ => .pure _

end Emits

end Fallible

end Prog
