import Lqxp.Prog.Pool
import Lqxp.Prog.Trace

/-!
This module contains the labels that a program can emit, whatever its environment does, and programs over a part of a
larger state, run inside programs over the whole of it.
-/

namespace Prog

variable {ι ε σ ℓ γ α β : Type}

/--
All labels of a program are `good`.
-/
def Emits (good : ℓ → Prop) : Prog ε σ ℓ α → Prop
  | .done _ => True
  | .step act next => ∀ e s, good (act e s).1 ∧ Emits good (next e s)

namespace Emits

variable {good good' : ℓ → Prop}

theorem pure (a : α) : Emits good (pure a : Prog ε σ ℓ α) := trivial

theorem bind {p : Prog ε σ ℓ α} {f : α → Prog ε σ ℓ β} (hp : Emits good p)
    (hf : ∀ a, Emits good (f a)) : Emits good (p >>= f) := by
  induction p with
  | done a => exact hf a
  | step act next ih =>
    intro e s
    obtain ⟨hlabel, hrest⟩ := hp e s
    exact ⟨hlabel, ih e s hrest⟩

theorem atom {f : ε → σ → α × ℓ × σ} (h : ∀ e s, good (f e s).2.1) : Emits good (Prog.atom f) :=
  fun e s => ⟨h e s, trivial⟩

theorem mono {p : Prog ε σ ℓ α} (h : ∀ l, good l → good' l) (hp : Emits good p) : Emits good' p := by
  induction p with
  | done a => trivial
  | step act next ih =>
    intro e s
    obtain ⟨hlabel, hrest⟩ := hp e s
    exact ⟨h _ hlabel, ih e s hrest⟩

theorem of_spec {next : γ → ℓ → γ} {ok : γ → ε → σ → ℓ → σ → Prop} {post : α → γ → Prop}
    {p : Prog ε σ ℓ α} {g : γ} (I : γ → Prop)
    (hstep : ∀ g e s l s', I g → ok g e s l s' → good l ∧ I (next g l))
    (hspec : Spec next ok post p g) (hg : I g) : Emits good p := by
  induction p generalizing g with
  | done a => trivial
  | step act rest ih =>
    intro e s
    obtain ⟨hok, hrest⟩ := hspec e s
    obtain ⟨hlabel, hg'⟩ := hstep _ _ _ _ _ hg hok
    exact ⟨hlabel, ih e s hrest hg'⟩

theorem of_trace {p : Prog ε σ ℓ α} {s s' : σ} {tr : List (ε × ℓ)} {a : α} (h : Emits good p)
    (run : Trace p s tr a s') : ∀ x ∈ tr, good x.2 := by
  induction run with
  | done a s => exact fun _ hx => absurd hx List.not_mem_nil
  | step e run ih =>
    obtain ⟨hlabel, hrest⟩ := h e _
    exact List.forall_mem_cons.2 ⟨hlabel, ih hrest⟩

theorem spec {next : γ → ℓ → γ} {p : Prog ε σ ℓ α} (h : Emits good p) (g : γ)
    : Spec next (fun _ _ _ l _ => good l) (fun _ _ => True) p g := by
  induction p generalizing g with
  | done a => trivial
  | step act rest ih =>
    intro e s
    obtain ⟨hlabel, hrest⟩ := h e s
    exact ⟨hlabel, ih e s hrest _⟩

end Emits

end Prog

namespace Prog

variable {ε σ ℓ ε' σ' ℓ' γ γ' α β : Type}

/--
How a part of a larger world is found and replaced there, and how its labels are seen from there.
-/
structure View (ε σ ℓ ε' σ' ℓ' : Type) where
  env : ε' → ε
  get : σ' → σ
  put : σ → σ' → σ'
  tag : σ' → ℓ → ℓ'
  get_put : ∀ s s', get (put s s') = s

def zoom (v : View ε σ ℓ ε' σ' ℓ') : Prog ε σ ℓ α → Prog ε' σ' ℓ' α
  | .done a => .done a
  | .step act next =>
    .step (fun e s => (v.tag s (act (v.env e) (v.get s)).1, v.put (act (v.env e) (v.get s)).2 s))
      fun e s => (next (v.env e) (v.get s)).zoom v

variable (v : View ε σ ℓ ε' σ' ℓ')

theorem zoom_bind (p : Prog ε σ ℓ α) (f : α → Prog ε σ ℓ β)
    : (p >>= f).zoom v = p.zoom v >>= fun a => (f a).zoom v := by
  induction p with
  | done a => rfl
  | step act next ih =>
    rw [step_bind, zoom, zoom, step_bind]
    congr
    funext e s
    exact ih (v.env e) (v.get s)

/--
What the steps of a program satisfy, they satisfy inside the larger world, where `sim` relates the memory
kept there to that of the program.
-/
theorem Spec.zoom {next : γ → ℓ → γ} {next' : γ' → ℓ' → γ'} {ok : γ → ε → σ → ℓ → σ → Prop}
    {ok' : γ' → ε' → σ' → ℓ' → σ' → Prop} {post : α → γ → Prop} (sim : γ' → γ → Prop)
    (hnext : ∀ g' g s l, sim g' g → sim (next' g' (v.tag s l)) (next g l))
    (hok : ∀ g' g e s l s', sim g' g → ok g (v.env e) (v.get s) l s' →
      ok' g' e s (v.tag s l) (v.put s' s))
    {p : Prog ε σ ℓ α} {g : γ} {g' : γ'} (h : Spec next ok post p g) (hsim : sim g' g)
    : Spec next' ok' (fun a g' => ∃ g, sim g' g ∧ post a g) (p.zoom v) g' := by
  induction p generalizing g g' with
  | done a => exact ⟨g, hsim, h⟩
  | step act rest ih =>
    intro e s
    obtain ⟨hstep, hrest⟩ := h (v.env e) (v.get s)
    exact ⟨hok g' g e s _ _ hsim hstep, ih _ _ hrest (hnext g' g s _ hsim)⟩

theorem Emits.zoom {good : ℓ → Prop} {good' : ℓ' → Prop} (hgood : ∀ s l, good l → good' (v.tag s l))
    {p : Prog ε σ ℓ α} (h : Emits good p) : Emits good' (p.zoom v) := by
  induction p with
  | done a => trivial
  | step act next ih =>
    intro e s
    obtain ⟨hlabel, hrest⟩ := h (v.env e) (v.get s)
    exact ⟨hgood s _ hlabel, ih _ _ hrest⟩

end Prog
