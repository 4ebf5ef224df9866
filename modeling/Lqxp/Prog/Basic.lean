/-!
This module contains labelled step programs: the shape of a request handler that shares its state
with other handlers. A program is a tree of atomic steps, between two of which anything may happen
to the shared state.
-/

/--
A program over the shared state `σ`. Each step sees what the outside world supplies to it (`ε`) and
the state at that moment, emits a label `ℓ`, moves the state and chooses the rest of the program.
-/
inductive Prog (ε σ ℓ α : Type) where
  | done (a : α)
  | step (act : ε → σ → ℓ × σ) (next : ε → σ → Prog ε σ ℓ α)

namespace Prog

variable {ε σ ℓ γ α β : Type}

def bind (p : Prog ε σ ℓ α) (f : α → Prog ε σ ℓ β) : Prog ε σ ℓ β :=
  match p with
  | .done a => f a
  | .step act next => .step act fun e s => (next e s).bind f

instance : Monad (Prog ε σ ℓ) where
  pure := .done
  bind := bind

@[simp]
theorem pure_eq_done (a : α) : (pure a : Prog ε σ ℓ α) = .done a := rfl

@[simp]
theorem done_bind (a : α) (f : α → Prog ε σ ℓ β) : (Prog.done a >>= f) = f a := rfl

theorem step_bind (act : ε → σ → ℓ × σ) (next : ε → σ → Prog ε σ ℓ α) (f : α → Prog ε σ ℓ β)
    : (Prog.step act next >>= f) = .step act fun e s => next e s >>= f := rfl

def atom (f : ε → σ → α × ℓ × σ) : Prog ε σ ℓ α :=
  .step (fun e s => (f e s).2) (fun e s => .done (f e s).1)

/--
What a program does whatever its environment does in between: starting with the memory `g`, updated
by `next` with every label, each step satisfies `ok` and the result satisfies `post`.
-/
def Spec (next : γ → ℓ → γ) (ok : γ → ε → σ → ℓ → σ → Prop) (post : α → γ → Prop)
    : Prog ε σ ℓ α → γ → Prop
  | .done a, g => post a g
  | .step act rest, g =>
    ∀ e s,
      ok g e s (act e s).1 (act e s).2 ∧ Spec next ok post (rest e s) (next g (act e s).1)

namespace Spec

variable {next : γ → ℓ → γ} {ok : γ → ε → σ → ℓ → σ → Prop}

@[simp]
theorem done_iff {post : α → γ → Prop} {a : α} {g : γ}
    : Spec next ok post (Prog.done a : Prog ε σ ℓ α) g ↔ post a g := .rfl

theorem bind_iff {p : Prog ε σ ℓ α} {f : α → Prog ε σ ℓ β} {post : β → γ → Prop} {g : γ}
    : Spec next ok post (p >>= f) g
        ↔ Spec next ok (fun a g' => Spec next ok post (f a) g') p g := by
  induction p generalizing g with
  | done a => rfl
  | step act rest ih =>
    simp only [step_bind, Spec]
    exact forall₂_congr fun e s => and_congr_right fun _ => ih e s

theorem atom_iff {f : ε → σ → α × ℓ × σ} {post : α → γ → Prop} {g : γ}
    : Spec next ok post (Prog.atom f) g
        ↔ ∀ e s, ok g e s (f e s).2.1 (f e s).2.2 ∧ post (f e s).1 (next g (f e s).2.1) := .rfl

theorem mono {p : Prog ε σ ℓ α} {post post' : α → γ → Prop} {g : γ} (hp : Spec next ok post p g)
    (hpost : ∀ a g, post a g → post' a g)
    : Spec next ok post' p g := by
  induction p generalizing g with
  | done a => exact hpost a g hp
  | step act rest ih =>
    intro e s
    obtain ⟨hstep, hrest⟩ := hp e s
    exact ⟨hstep, ih e s hrest⟩

theorem imp {ok' : γ → ε → σ → ℓ → σ → Prop} {p : Prog ε σ ℓ α} {post post' : α → γ → Prop} {g : γ}
    (h : Spec next (fun g e s l s' => ok g e s l s' → ok' g e s l s') post p g)
    (hp : Spec next ok post' p g)
    : Spec next ok' post p g := by
  induction p generalizing g with
  | done a => exact h
  | step act rest ih =>
    intro e s
    obtain ⟨himp, hrest⟩ := h e s
    obtain ⟨hstep, hp⟩ := hp e s
    exact ⟨himp hstep, ih e s hrest hp⟩

theorem and {ok' : γ → ε → σ → ℓ → σ → Prop} {p : Prog ε σ ℓ α} {post post' : α → γ → Prop} {g : γ}
    (h : Spec next ok post p g) (h' : Spec next ok' post' p g)
    : Spec next (fun g e s l s' => ok g e s l s' ∧ ok' g e s l s') (fun a g => post a g ∧ post' a g) p g := by
  induction p generalizing g with
  | done a => exact ⟨h, h'⟩
  | step act rest ih =>
    intro e s
    obtain ⟨hstep, hrest⟩ := h e s
    obtain ⟨hstep', hrest'⟩ := h' e s
    exact ⟨⟨hstep, hstep'⟩, ih e s hrest hrest'⟩

theorem of_invariant {I : γ → Prop} (hnext : ∀ g l, I g → I (next g l))
    (hok : ∀ g e s l s', I g → ok g e s l s') (p : Prog ε σ ℓ α) {g : γ} (hg : I g)
    : Spec next ok (fun _ _ => True) p g := by
  induction p generalizing g with
  | done a => trivial
  | step act rest ih => exact fun e s => ⟨hok _ _ _ _ _ hg, ih e s (hnext _ _ hg)⟩

end Spec

end Prog
