import Mathlib.Data.List.Induction
import Lqxp.Prog.Basic

/-!
This module contains uninterrupted runs of programs with the inputs and the labels of their steps: how such a
run splits into the runs of the parts of a program, what sequences of them preserve, and the runs whose steps take
their inputs from a given supply, which are determined by that and by the state that they start in.
-/

namespace Prog

variable {ι ε σ ℓ τ α β : Type}

/--
A run of a program that nothing interleaves with.
-/
inductive Trace : Prog ε σ ℓ α → σ → List (ε × ℓ) → α → σ → Prop where
  | done (a : α) (s : σ) : Trace (.done a) s [] a s
  | step {act : ε → σ → ℓ × σ} {next : ε → σ → Prog ε σ ℓ α} {s s' : σ} {tr : List (ε × ℓ)} {a : α} (e : ε)
      (run : Trace (next e s) (act e s).2 tr a s')
    : Trace (.step act next) s ((e, (act e s).1) :: tr) a s'

section Inversion

variable {s s' : σ} {tr : List (ε × ℓ)}

theorem trace_done_iff {a b : α}
    : Trace (.done a : Prog ε σ ℓ α) s tr b s' ↔ tr = [] ∧ b = a ∧ s' = s := by
  constructor
  . rintro ⟨⟩
    exact ⟨rfl, rfl, rfl⟩
  . rintro ⟨rfl, rfl, rfl⟩
    exact .done b s'

theorem trace_step_iff {act : ε → σ → ℓ × σ} {next : ε → σ → Prog ε σ ℓ α} {a : α}
    : Trace (.step act next) s tr a s'
        ↔ ∃ e rest, tr = (e, (act e s).1) :: rest ∧ Trace (next e s) (act e s).2 rest a s' := by
  constructor
  . rintro (_ | ⟨e, run⟩)
    exact ⟨e, _, rfl, run⟩
  . rintro ⟨e, rest, rfl, run⟩
    exact .step e run

theorem trace_bind_iff {p : Prog ε σ ℓ α} {f : α → Prog ε σ ℓ β} {b : β}
    : Trace (p >>= f) s tr b s'
        ↔ ∃ a s₁ tr₁ tr₂, Trace p s tr₁ a s₁ ∧ Trace (f a) s₁ tr₂ b s' ∧ tr = tr₁ ++ tr₂ := by
  induction p generalizing s tr with
  | done a =>
    constructor
    . intro h
      exact ⟨a, s, [], tr, .done a s, h, rfl⟩
    . rintro ⟨a', s₁, tr₁, tr₂, hp, hf, rfl⟩
      obtain ⟨rfl, rfl, rfl⟩ := trace_done_iff.1 hp
      exact hf
  | step act next ih =>
    rw [step_bind, trace_step_iff]
    constructor
    . rintro ⟨e, rest, rfl, run⟩
      obtain ⟨a, s₁, tr₁, tr₂, hp, hf, rfl⟩ := (ih e s).1 run
      exact ⟨a, s₁, _, tr₂, .step e hp, hf, rfl⟩
    . rintro ⟨a, s₁, tr₁, tr₂, hp, hf, rfl⟩
      obtain ⟨e, rest, rfl, run⟩ := trace_step_iff.1 hp
      exact ⟨e, rest ++ tr₂, rfl, (ih e s).2 ⟨a, s₁, rest, tr₂, run, hf, rfl⟩⟩

theorem trace_atom_iff {f : ε → σ → α × ℓ × σ} {a : α}
    : Trace (atom f) s tr a s'
        ↔ ∃ e, tr = [(e, (f e s).2.1)] ∧ a = (f e s).1 ∧ s' = (f e s).2.2 := by
  rw [atom, trace_step_iff]
  constructor
  . rintro ⟨e, rest, rfl, run⟩
    obtain ⟨rfl, rfl, rfl⟩ := trace_done_iff.1 run
    exact ⟨e, rfl, rfl, rfl⟩
  . rintro ⟨e, rfl, rfl, rfl⟩
    exact ⟨e, [], rfl, .done _ _⟩

end Inversion

theorem exists_trace (p : Prog ε σ ℓ α) (e : ε) (s : σ)
    : ∃ tr a s', Trace p s tr a s' ∧ ∀ entry ∈ tr, entry.1 = e := by
  induction p generalizing s with
  | done a => exact ⟨[], a, s, .done a s, fun _ h => nomatch h⟩
  | step act next ih =>
    obtain ⟨tr, a, s', run, hinputs⟩ := ih e s (act e s).2
    exact ⟨_, a, s', .step e run, List.forall_mem_cons.2 ⟨rfl, hinputs⟩⟩

section Memory

variable {γ : Type} {next : γ → ℓ → γ} {s s' : σ} {tr : List (ε × ℓ)}

/--
What holds at every step of a run, given the memory that the run has before it.
-/
def Along (next : γ → ℓ → γ) (P : γ → ε → ℓ → Prop) : γ → List (ε × ℓ) → Prop
  | _, [] => True
  | g, x :: tr => P g x.1 x.2 ∧ Along next P (next g x.2) tr

instance Along.decidable {P : γ → ε → ℓ → Prop} [∀ g e l, Decidable (P g e l)] (g : γ) (tr : List (ε × ℓ))
    : Decidable (Along next P g tr) :=
  match tr with
  | [] => .isTrue trivial
  | x :: tr =>
    have := Along.decidable (P := P) (next g x.2) tr
    inferInstanceAs (Decidable (P g x.1 x.2 ∧ Along next P (next g x.2) tr))

theorem Along.of_forall {P : ε → ℓ → Prop} {g : γ} (h : ∀ x ∈ tr, P x.1 x.2)
    : Along next (fun _ e l => P e l) g tr := by
  induction tr generalizing g with
  | nil => trivial
  | cons x tr ih => exact ⟨h x List.mem_cons_self, ih fun y hy => h y (List.mem_cons_of_mem x hy)⟩

/--
A relation between memory and state that every step of a program keeps holds at the end of its runs,
together with what the program guarantees at its end.
-/
theorem Trace.of_spec {ok : γ → ε → σ → ℓ → σ → Prop} {post : α → γ → Prop} {P : γ → ε → ℓ → Prop}
    (I : γ → σ → Prop) {p : Prog ε σ ℓ α} {a : α} {g : γ}
    (hstep : ∀ g e s l s', P g e l → ok g e s l s' → I g s → I (next g l) s')
    (hspec : Spec next ok post p g) (run : Trace p s tr a s') (hadm : Along next P g tr) (hinv : I g s)
    : ∃ g', post a g' ∧ I g' s' := by
  induction run generalizing g with
  | done a s => exact ⟨g, hspec, hinv⟩
  | step e run ih =>
    obtain ⟨hok, hrest⟩ := hspec e _
    exact ih hrest hadm.2 (hstep _ _ _ _ _ hadm.1 hok hinv)

/--
A run that does not satisfy `P` throughout has a step that does not. Up to it the relation holds, and the rest
of the program runs after it.
-/
theorem Trace.exists_not_along {ok : γ → ε → σ → ℓ → σ → Prop} {post : α → γ → Prop} {P : γ → ε → ℓ → Prop}
    (I : γ → σ → Prop) {p : Prog ε σ ℓ α} {a : α} {g : γ}
    (hstep : ∀ g e s l s', P g e l → ok g e s l s' → I g s → I (next g l) s')
    (hspec : Spec next ok post p g) (run : Trace p s tr a s') (hnot : ¬ Along next P g tr) (hinv : I g s)
    : ∃ g' e l s₁ s₂ p' tr', ¬ P g' e l ∧ I g' s₁ ∧ ok g' e s₁ l s₂ ∧ Spec next ok post p' (next g' l)
        ∧ Trace p' s₂ tr' a s' := by
  induction run generalizing g with
  | done a s => exact absurd trivial hnot
  | @step act rest s s' tr a e run ih =>
    obtain ⟨hok, hrest⟩ := hspec e s
    by_cases hP : P g e (act e s).1
    . exact ih hrest (fun halong => hnot ⟨hP, halong⟩) (hstep _ _ _ _ _ hP hok hinv)
    . exact ⟨g, e, _, _, _, _, _, hP, hinv, hok, hrest, run⟩

end Memory

section Play

/--
Play a program when the outside world supplies the same to all of its steps.
-/
def play (e : ε) : Prog ε σ ℓ α → σ → List (ε × ℓ) × α × σ
  | .done a, s => ([], a, s)
  | .step act next, s =>
    let (tr, a, s') := play e (next e s) (act e s).2
    ((e, (act e s).1) :: tr, a, s')

theorem trace_play (e : ε) (p : Prog ε σ ℓ α) (s : σ)
    : Trace p s (play e p s).1 (play e p s).2.1 (play e p s).2.2 := by
  induction p generalizing s with
  | done a => exact .done a s
  | step act next ih => exact .step e (ih e s (act e s).2)

theorem play_atom (e : ε) (f : ε → σ → α × ℓ × σ) (s : σ)
    : (play e (atom f) s).2 = ((f e s).1, (f e s).2.2) := rfl

theorem play_bind (e : ε) (p : Prog ε σ ℓ α) (f : α → Prog ε σ ℓ β) (s : σ)
    : (play e (p >>= f) s).2 = (play e (f (play e p s).2.1) (play e p s).2.2).2 := by
  induction p generalizing s with
  | done a => rfl
  | step act next ih => exact ih e s (act e s).2

theorem play_bind_of {e : ε} {p : Prog ε σ ℓ α} {s s' : σ} {a : α} (h : (play e p s).2 = (a, s'))
    (f : α → Prog ε σ ℓ β) : (play e (p >>= f) s).2 = (play e (f a) s').2 := by
  rw [play_bind, h]

theorem eq_of_mem_play {e : ε} {p : Prog ε σ ℓ α} {s : σ} {x : ε × ℓ} (h : x ∈ (play e p s).1) : x.1 = e := by
  induction p generalizing s with
  | done a => simp [play] at h
  | step act next ih =>
    rcases List.mem_cons.1 h with rfl | h
    . rfl
    . exact ih e s h

end Play

/--
A program leaves a part of the state as it is.
-/
def Preserves (v : σ → τ) (p : Prog ε σ ℓ α) : Prop := ∀ s tr a s', Trace p s tr a s' → v s' = v s

namespace Preserves

variable {v : σ → τ}

theorem pure (a : α) : Preserves v (pure a : Prog ε σ ℓ α) := by
  intro s tr b s' h
  obtain ⟨-, -, rfl⟩ := trace_done_iff.1 h
  rfl

theorem bind {p : Prog ε σ ℓ α} {f : α → Prog ε σ ℓ β} (hp : Preserves v p) (hf : ∀ a, Preserves v (f a))
    : Preserves v (p >>= f) := by
  intro s tr b s' h
  obtain ⟨a, s₁, tr₁, tr₂, hrun, hrest, -⟩ := trace_bind_iff.1 h
  exact (hf a _ _ _ _ hrest).trans (hp _ _ _ _ hrun)

theorem atom {f : ε → σ → α × ℓ × σ} (h : ∀ e s, v (f e s).2.2 = v s) : Preserves v (atom f) := by
  intro s tr a s' hrun
  obtain ⟨e, -, -, rfl⟩ := trace_atom_iff.1 hrun
  exact h e s

theorem play {p : Prog ε σ ℓ α} (hp : Preserves v p) (e : ε) (s : σ) : v (p.play e s).2.2 = v s :=
  hp _ _ _ _ (trace_play e p s)

theorem play_bind {f : α → Prog ε σ ℓ β} (hf : ∀ a, Preserves v (f a)) (e : ε) (p : Prog ε σ ℓ α) (s : σ)
    : v ((p >>= f).play e s).2.2 = v (p.play e s).2.2 := by
  rw [Prog.play_bind]
  exact (hf _).play e _

end Preserves

/--
A program changes a part of the state at most once, along `R`, which may refer to the label of that step.
-/
def MovesOnce (v : σ → τ) (R : τ → ℓ → τ → Prop) (p : Prog ε σ ℓ α) : Prop :=
  ∀ s tr a s', Trace p s tr a s' → v s' = v s ∨ ∃ x ∈ tr, R (v s) x.2 (v s')

namespace MovesOnce

variable {v : σ → τ} {R : τ → ℓ → τ → Prop}

theorem of_preserves {p : Prog ε σ ℓ α} (hp : Preserves v p) : MovesOnce v R p :=
  fun s tr a s' h => .inl (hp s tr a s' h)

theorem atom {f : ε → σ → α × ℓ × σ}
    (h : ∀ e s, v (f e s).2.2 = v s ∨ R (v s) (f e s).2.1 (v (f e s).2.2)) : MovesOnce v R (atom f) := by
  intro s tr a s' hrun
  obtain ⟨e, rfl, -, rfl⟩ := trace_atom_iff.1 hrun
  exact (h e s).imp_right fun hR => ⟨_, List.mem_singleton_self _, hR⟩

theorem bind {p : Prog ε σ ℓ α} {f : α → Prog ε σ ℓ β} (hp : Preserves v p)
    (hf : ∀ a, MovesOnce v R (f a)) : MovesOnce v R (p >>= f) := by
  intro s tr b s' h
  obtain ⟨a, s₁, tr₁, tr₂, hrun, hrest, rfl⟩ := trace_bind_iff.1 h
  rw [← hp _ _ _ _ hrun]
  exact (hf a _ _ _ _ hrest).imp_right fun ⟨x, hx, hR⟩ => ⟨x, List.mem_append_right _ hx, hR⟩

theorem bind_preserves {p : Prog ε σ ℓ α} {f : α → Prog ε σ ℓ β} (hp : MovesOnce v R p)
    (hf : ∀ a, Preserves v (f a)) : MovesOnce v R (p >>= f) := by
  intro s tr b s' h
  obtain ⟨a, s₁, tr₁, tr₂, hrun, hrest, rfl⟩ := trace_bind_iff.1 h
  rw [hf a _ _ _ _ hrest]
  exact (hp _ _ _ _ hrun).imp_right fun ⟨x, hx, hR⟩ => ⟨x, List.mem_append_left _ hx, hR⟩

end MovesOnce

section Sequences

/--
Requests served one after the other, each without interruption and as `adm` admits it.
-/
inductive Served (handle : ι → Prog ε σ ℓ Unit) (adm : σ → ι → List (ε × ℓ) → Prop)
    : σ → List (ι × List (ε × ℓ)) → σ → Prop where
  | nil (s : σ) : Served handle adm s [] s
  | snoc {s s' s'' : σ} {log : List (ι × List (ε × ℓ))} {req : ι} {tr : List (ε × ℓ)}
      (runs : Served handle adm s log s') (hadm : adm s' req tr) (run : Trace (handle req) s' tr () s'')
    : Served handle adm s (log ++ [(req, tr)]) s''

namespace Served

variable {handle : ι → Prog ε σ ℓ Unit} {adm : σ → ι → List (ε × ℓ) → Prop} {s s' s'' : σ}
  {log log' : List (ι × List (ε × ℓ))}

theorem invariant (P : σ → Prop)
    (hstep : ∀ s req tr s', Trace (handle req) s tr () s' → adm s req tr → P s → P s')
    (h : Served handle adm s log s') (hp : P s) : P s' := by
  induction h with
  | nil => exact hp
  | snoc runs hadm run ih => exact hstep _ _ _ _ run hadm ih

theorem append (h : Served handle adm s log s') (h' : Served handle adm s' log' s'')
    : Served handle adm s (log ++ log') s'' := by
  induction h' with
  | nil => rwa [List.append_nil]
  | snoc runs hadm run ih =>
    rw [← List.append_assoc]
    exact .snoc ih hadm run

theorem mono {adm' : σ → ι → List (ε × ℓ) → Prop} (himp : ∀ s req tr, adm s req tr → adm' s req tr)
    (h : Served handle adm s log s') : Served handle adm' s log s' := by
  induction h with
  | nil => exact .nil _
  | snoc runs hadm run ih => exact .snoc ih (himp _ _ _ hadm) run

/--
Play requests one after the other, each on one input; `none` when one of them is not admitted.
-/
def playAll (handle : ι → Prog ε σ ℓ Unit) (adm : σ → ι → List (ε × ℓ) → Bool)
    : List (ι × ε) → σ → Option (List (ι × List (ε × ℓ)) × σ)
  | [], s => some ([], s)
  | (req, e) :: script, s =>
    let (tr, _, s') := play e (handle req) s
    if adm s req tr then
      (playAll handle adm script s').map fun res => ((req, tr) :: res.1, res.2)
    else
      none

theorem of_playAll {adm : σ → ι → List (ε × ℓ) → Bool} {script : List (ι × ε)} {s s' : σ}
    {log : List (ι × List (ε × ℓ))} (h : playAll handle adm script s = some (log, s'))
    : Served handle (fun s req tr => adm s req tr) s log s' := by
  induction script generalizing s log with
  | nil =>
    obtain ⟨rfl, rfl⟩ := by simpa [playAll] using h
    exact .nil s
  | cons entry script ih =>
    obtain ⟨req, e⟩ := entry
    rw [playAll] at h
    dsimp only at h
    split at h
    next hadm =>
      obtain ⟨⟨log', s₁⟩, hplay, heq⟩ := Option.map_eq_some_iff.1 h
      obtain ⟨rfl, rfl⟩ := by simpa using heq
      have hfirst : Served handle (fun s req tr => adm s req tr) s
          [(req, (play e (handle req) s).1)] (play e (handle req) s).2.2 :=
        .snoc (.nil s) hadm (trace_play e (handle req) s)
      exact append hfirst (ih hplay)
    next => contradiction

theorem exists_of_playAll {adm : σ → ι → List (ε × ℓ) → Bool} {script : List (ι × ε)} {s : σ}
    {f : σ → Option τ} {v : τ}
    (h : ((playAll handle adm script s).map (·.2)).bind f = some v)
    : ∃ log s', Served handle (fun s req tr => adm s req tr) s log s' ∧ f s' = some v := by
  obtain ⟨s', hfinal, hv⟩ := Option.bind_eq_some_iff.1 h
  obtain ⟨⟨log, s₁⟩, hplay, rfl⟩ := Option.map_eq_some_iff.1 hfinal
  exact ⟨log, s₁, of_playAll hplay, hv⟩

end Served

end Sequences

section Histories

/--
One request with the states around it.
-/
structure Visit (ι ε σ ℓ : Type) where
  before : σ
  req : ι
  tr : List (ε × ℓ)
  after : σ

/--
Requests served one after the other, each without interruption, from the first to the last.
-/
inductive History (handle : ι → Prog ε σ ℓ Unit) : σ → List (Visit ι ε σ ℓ) → Prop where
  | nil (s : σ) : History handle s []
  | cons {s s' : σ} {req : ι} {tr : List (ε × ℓ)} {visits : List (Visit ι ε σ ℓ)}
      (run : Trace (handle req) s tr () s') (rest : History handle s' visits)
    : History handle s ({ before := s, req, tr, after := s' } :: visits)

/--
Play requests one after the other, each on one input.
-/
def playVisits (handle : ι → Prog ε σ ℓ Unit) : List (ι × ε) → σ → List (Visit ι ε σ ℓ)
  | [], _ => []
  | (req, e) :: script, s =>
    let (tr, _, after) := play e (handle req) s
    { before := s, req, tr, after } :: playVisits handle script after

theorem history_playVisits {handle : ι → Prog ε σ ℓ Unit} (script : List (ι × ε)) (s : σ)
    : History handle s (playVisits handle script s) := by
  induction script generalizing s with
  | nil => exact .nil s
  | cons entry script ih => exact .cons (trace_play entry.2 (handle entry.1) s) (ih _)

end Histories

section Supplies

/--
Run a program that nothing interleaves with: step number `n` gets `supply n`. The answer is preceded by the labels
of the steps.
-/
def feed (supply : Nat → ε) : Prog ε σ ℓ α → σ → List ℓ × α × σ
  | .done a, s => ([], a, s)
  | .step act next, s =>
    let (labels, a, s') := feed (fun n => supply (n + 1)) (next (supply 0) s) (act (supply 0) s).2
    ((act (supply 0) s).1 :: labels, a, s')

/--
Serve requests one after the other, each on its own supply. The answer has the labels of each of them.
-/
def feedAll (handle : ι → Prog ε σ ℓ Unit) : List (ι × (Nat → ε)) → σ → List (List ℓ)
  | [], _ => []
  | (req, supply) :: rest, s =>
    let (labels, _, s') := feed supply (handle req) s
    labels :: feedAll handle rest s'

end Supplies

end Prog
