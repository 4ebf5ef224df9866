import Lqxp.Prog.Pool

/-!
This module contains the two ways to execute programs: complete runs of one program whose environment
keeps to a given relation, and an interpreter that plays a given schedule on a pool.
-/

namespace Prog

variable {ι ε σ ℓ γ α β : Type}

/--
The complete runs of one program. Before each of its steps the environment may move the state along
`rely`; with equality in place of `rely` nothing interleaves with the program. `adm` restricts the
steps that are considered.
-/
inductive Complete (rely : σ → σ → Prop) (adm : ε → σ → ℓ → Prop)
    : Prog ε σ ℓ α → σ → α → σ → Prop where
  | done (a : α) (s : σ) : Complete rely adm (.done a) s a s
  | step {act : ε → σ → ℓ × σ} {rest : ε → σ → Prog ε σ ℓ α} {s s' s'' : σ} {a : α} (e : ε)
      (hrely : rely s s') (hadm : adm e s' (act e s').1)
      (run : Complete rely adm (rest e s') (act e s').2 a s'')
    : Complete rely adm (.step act rest) s a s''

/--
The states from which every complete run of a program ends as `post` says.
-/
def wp (rely : σ → σ → Prop) (adm : ε → σ → ℓ → Prop) (post : α → σ → Prop)
    : Prog ε σ ℓ α → σ → Prop
  | .done a, s => post a s
  | .step act rest, s =>
    ∀ s', rely s s' → ∀ e, adm e s' (act e s').1 → wp rely adm post (rest e s') (act e s').2

variable {rely : σ → σ → Prop} {adm : ε → σ → ℓ → Prop}

theorem Complete.of_wp {post : α → σ → Prop} {p : Prog ε σ ℓ α} {s s' : σ} {a : α}
    (h : wp rely adm post p s) (run : Complete rely adm p s a s') : post a s' := by
  induction run with
  | done a s => exact h
  | step e hrely hadm run ih => exact ih (h _ hrely e hadm)

/--
A relation between memory and state that the environment and every step of a program keep holds at the
end of its complete runs, together with what the program guarantees at its end.
-/
theorem Complete.of_spec {next : γ → ℓ → γ} {ok : γ → ε → σ → ℓ → σ → Prop} {post : α → γ → Prop}
    (I : γ → σ → Prop) {p : Prog ε σ ℓ α} {s s' : σ} {a : α} {g : γ}
    (henv : ∀ g s s', rely s s' → I g s → I g s')
    (hstep : ∀ g e s l s', adm e s l → ok g e s l s' → I g s → I (next g l) s')
    (hspec : Spec next ok post p g) (run : Complete rely adm p s a s') (hinv : I g s)
    : ∃ g', post a g' ∧ I g' s' := by
  induction run generalizing g with
  | done a s => exact ⟨g, hspec, hinv⟩
  | step e hrely hadm run ih =>
    obtain ⟨hok, hrest⟩ := hspec e _
    exact ih hrest (hstep _ _ _ _ _ hadm hok (henv _ _ _ hrely hinv))

section

variable {post : β → σ → Prop}

@[simp]
theorem wp_done_iff {post : α → σ → Prop} {a : α} {s : σ}
    : wp rely adm post (.done a : Prog ε σ ℓ α) s ↔ post a s := .rfl

theorem wp_bind_iff {p : Prog ε σ ℓ α} {f : α → Prog ε σ ℓ β} {s : σ}
    : wp rely adm post (p >>= f) s ↔ wp rely adm (fun a s' => wp rely adm post (f a) s') p s := by
  induction p generalizing s with
  | done a => rfl
  | step act rest ih =>
    simp only [step_bind, wp]
    exact forall₂_congr fun s' _ => forall₂_congr fun e _ => ih e s'

theorem wp_atom_iff {post : α → σ → Prop} {f : ε → σ → α × ℓ × σ} {s : σ}
    : wp rely adm post (atom f) s
        ↔ ∀ s', rely s s' → ∀ e, adm e s' (f e s').2.1 → post (f e s').1 (f e s').2.2 := .rfl

end

/--
Complete runs of the given requests, one after the other.
-/
inductive Sequential (S : System ι ε σ ℓ γ α) (adm : ε → σ → ℓ → Prop) : σ → List ι → σ → Prop where
  | nil (s : σ) : Sequential S adm s [] s
  | cons {s s' s'' : σ} {req : ι} {reqs : List ι} {a : α}
      (run : Complete Eq adm (S.handle req) s a s') (runs : Sequential S adm s' reqs s'')
    : Sequential S adm s (req :: reqs) s''

theorem Complete.mono {adm' : ε → σ → ℓ → Prop} {p : Prog ε σ ℓ α} {s s' : σ} {a : α}
    (himp : ∀ e s l, adm e s l → adm' e s l) (run : Complete rely adm p s a s')
    : Complete rely adm' p s a s' := by
  induction run with
  | done a s => exact .done a s
  | step e hrely hadm run ih => exact .step e hrely (himp _ _ _ hadm) ih

theorem Complete.rely_mono {rely' : σ → σ → Prop} {p : Prog ε σ ℓ α} {s s' : σ} {a : α}
    (himp : ∀ s s', rely s s' → rely' s s') (run : Complete rely adm p s a s') : Complete rely' adm p s a s' := by
  induction run with
  | done a s => exact .done a s
  | step e hrely hadm run ih => exact .step e (himp _ _ hrely) hadm ih

theorem Sequential.mono {S : System ι ε σ ℓ γ α} {adm' : ε → σ → ℓ → Prop} {s s' : σ}
    {reqs : List ι} (himp : ∀ e s l, adm e s l → adm' e s l) (h : Sequential S adm s reqs s')
    : Sequential S adm' s reqs s' := by
  induction h with
  | nil s => exact .nil s
  | cons run runs ih => exact .cons (run.mono himp) ih

theorem Sequential.invariant (P : σ → Prop) {S : System ι ε σ ℓ γ α} {s s' : σ} {reqs : List ι}
    (hrun : ∀ req s s' a, Complete Eq adm (S.handle req) s a s' → P s → P s')
    (h : Sequential S adm s reqs s') (hp : P s) : P s' := by
  induction h with
  | nil => exact hp
  | cons run runs ih => exact ih (hrun _ _ _ _ run hp)

/--
Play a single program on the given inputs, one for each step; `none` when there are too few or too many
of them, or one of the steps is none that `adm` admits.
-/
def exec (adm : ε → σ → ℓ → Bool) : List ε → Prog ε σ ℓ α → σ → Option (α × σ)
  | [], .done a, s => some (a, s)
  | e :: es, .step act rest, s =>
    if adm e s (act e s).1 then exec adm es (rest e s) (act e s).2 else none
  | _, _, _ => none

theorem Complete.of_exec {adm : ε → σ → ℓ → Bool} {es : List ε} {p : Prog ε σ ℓ α} {s s' : σ} {a : α}
    (h : exec adm es p s = some (a, s')) : Complete Eq (fun e s l => adm e s l) p s a s' := by
  induction es generalizing p s with
  | nil =>
    cases p with
    | done b =>
      obtain ⟨rfl, rfl⟩ := by simpa [exec] using h
      exact .done _ _
    | step act rest => simp [exec] at h
  | cons e es ih =>
    cases p with
    | done b => simp [exec] at h
    | step act rest =>
      rw [exec] at h
      split at h
      next hadm => exact .step e rfl hadm (ih h)
      next => contradiction

/--
Play requests one after the other, each on its own inputs.
-/
def System.exec (S : System ι ε σ ℓ γ α) (adm : ε → σ → ℓ → Bool)
    : List (ι × List ε) → σ → Option σ
  | [], s => some s
  | (req, es) :: script, s =>
    (Prog.exec adm es (S.handle req) s).bind fun res => System.exec S adm script res.2

theorem Sequential.of_exec {S : System ι ε σ ℓ γ α} {adm : ε → σ → ℓ → Bool}
    {script : List (ι × List ε)} {s s' : σ} (h : S.exec adm script s = some s')
    : Sequential S (fun e s l => adm e s l) s (script.map (·.1)) s' := by
  induction script generalizing s with
  | nil =>
    obtain rfl := Option.some.inj h
    exact .nil s
  | cons entry script ih =>
    obtain ⟨req, es⟩ := entry
    obtain ⟨⟨a, s₁⟩, hexec, hrest⟩ := Option.bind_eq_some_iff.1 h
    exact .cons (.of_exec hexec) (ih hrest)

/--
What a schedule does next: let a request arrive, or let a thread make a step on some input.
-/
inductive Cmd (ι ε : Type) where
  | start (req : ι)
  | act (i : Nat) (env : ε)

/--
Let a request arrive as thread `i` and let it make `n` steps, all on the same input.
-/
def Cmd.serve (req : ι) (i n : Nat) (env : ε) : List (Cmd ι ε) :=
  .start req :: List.replicate n (.act i env)

/--
Play a schedule on a pool; `none` when it lets a thread act that has no step to make, or none that `adm`
admits.
-/
def Pool.exec (S : System ι ε σ ℓ γ α) (adm : γ → ε → σ → ℓ → σ → Bool)
    : List (Cmd ι ε) → Pool ε σ ℓ γ α → Option (List (Event ι ε ℓ γ) × Pool ε σ ℓ γ α)
  | [], p => some ([], p)
  | .start req :: cmds, p =>
    (exec S adm cmds { p with threads := p.threads ++ [⟨S.start req, S.handle req⟩] }).map fun res =>
      (.start p.threads.length req :: res.1, res.2)
  | .act i env :: cmds, p =>
    match p.threads[i]? with
    | some ⟨g, .step act rest⟩ =>
      let (label, state) := act env p.state
      if adm g env p.state label state then
        (exec S adm cmds ⟨state, p.threads.set i ⟨S.next g label, rest env p.state⟩⟩).map fun res =>
          (.act i g env label :: res.1, res.2)
      else
        none
    | _ => none

theorem Run.of_exec {S : System ι ε σ ℓ γ α} {adm : γ → ε → σ → ℓ → σ → Bool}
    {cmds : List (Cmd ι ε)} {p q : Pool ε σ ℓ γ α} {tr : List (Event ι ε ℓ γ)}
    (h : Pool.exec S adm cmds p = some (tr, q))
    : Run S (fun g e s l s' => adm g e s l s') p tr q := by
  induction cmds generalizing p tr with
  | nil =>
    obtain ⟨rfl, rfl⟩ := by simpa [Pool.exec] using h
    exact .nil p
  | cons cmd cmds ih =>
    cases cmd with
    | start req =>
      simp only [Pool.exec, Option.map_eq_some_iff, Prod.mk.injEq, Prod.exists] at h
      obtain ⟨tr', q', hexec, rfl, rfl⟩ := h
      exact append (.snoc (.nil p) (.start p req)) (ih hexec)
    | act i env =>
      simp only [Pool.exec] at h
      split at h
      next g act rest hthread =>
        split at h
        next hadm =>
          simp only [Option.map_eq_some_iff, Prod.mk.injEq, Prod.exists] at h
          obtain ⟨tr', q', hexec, rfl, rfl⟩ := h
          exact append (.snoc (.nil p) (.act p i g act rest env hthread hadm)) (ih hexec)
        next => simp at h
      next => simp at h

theorem Run.exists_of_exec (S : System ι ε σ ℓ γ α) (adm : γ → ε → σ → ℓ → σ → Bool)
    (cmds : List (Cmd ι ε)) (p : Pool ε σ ℓ γ α) (test : List (Event ι ε ℓ γ) → Pool ε σ ℓ γ α → Bool)
    (h : (Pool.exec S adm cmds p).any (fun res => test res.1 res.2) = true)
    : ∃ tr q, Run S (fun g e s l s' => adm g e s l s') p tr q ∧ test tr q = true := by
  obtain ⟨⟨tr, q⟩, hexec, htest⟩ := (Option.any_eq_true _ _).1 h
  exact ⟨tr, q, .of_exec hexec, htest⟩

theorem Run.exists_two_of_exec (S : System ι ε σ ℓ γ α) (adm : γ → ε → σ → ℓ → σ → Bool)
    (cmds cmds' : List (Cmd ι ε)) (p : Pool ε σ ℓ γ α) (test : Pool ε σ ℓ γ α → Pool ε σ ℓ γ α → Bool)
    (h : (Pool.exec S adm cmds p).any (fun res =>
      (Pool.exec S adm cmds' res.2).any fun res' => test res.2 res'.2) = true)
    : ∃ tr q tr' r, Run S (fun g e s l s' => adm g e s l s') p tr q
        ∧ Run S (fun g e s l s' => adm g e s l s') q tr' r ∧ test q r = true := by
  obtain ⟨tr, q, hrun, htest⟩ := Run.exists_of_exec S adm cmds p (fun _ q =>
    (Pool.exec S adm cmds' q).any fun res => test q res.2) h
  obtain ⟨⟨tr', r⟩, hexec, htest⟩ := (Option.any_eq_true _ _).1 htest
  exact ⟨tr, q, tr', r, hrun, .of_exec hexec, htest⟩

theorem Run.exists_at_of_exec (S : System ι ε σ ℓ γ α) (cmds : List (Cmd ι ε)) (p : Pool ε σ ℓ γ α)
    (n : Nat) (test : List (Event ι ε ℓ γ) → Event ι ε ℓ γ → List (Event ι ε ℓ γ) →
      Pool ε σ ℓ γ α → Bool)
    (h : (Pool.exec S (fun _ _ _ _ _ => true) cmds p).any (fun res =>
      (res.1[n]?).any fun ev => test (res.1.take n) ev (res.1.drop (n + 1)) res.2) = true)
    : ∃ pre ev post q,
        Run S (fun _ _ _ _ _ => True) p (pre ++ ev :: post) q ∧ test pre ev post q = true := by
  obtain ⟨tr, q, hrun, htest⟩ := Run.exists_of_exec S (fun _ _ _ _ _ => true) cmds p (fun tr q =>
    (tr[n]?).any fun ev => test (tr.take n) ev (tr.drop (n + 1)) q) h
  obtain ⟨ev, hev, htest⟩ := (Option.any_eq_true _ _).1 htest
  refine ⟨tr.take n, ev, tr.drop (n + 1), q, ?_, htest⟩
  obtain ⟨hn, rfl⟩ := List.getElem?_eq_some_iff.1 hev
  simpa using hrun.mono fun _ _ _ _ _ _ => trivial

theorem Run.exists_step_of_exec (S : System ι ε σ ℓ γ α) (adm : γ → ε → σ → ℓ → σ → Bool)
    (cmds : List (Cmd ι ε)) (p : Pool ε σ ℓ γ α) (i : Nat) (env : ε)
    (test : Pool ε σ ℓ γ α → Event ι ε ℓ γ → Pool ε σ ℓ γ α → Bool)
    (h : (Pool.exec S adm cmds p).any (fun res =>
      (Pool.exec S adm [.act i env] res.2).any fun next => next.1.all fun ev => test res.2 ev next.2)
        = true)
    : ∃ tr q g l r, Run S (fun g e s l s' => adm g e s l s') p tr q
        ∧ Step S (fun g e s l s' => adm g e s l s') q (.act i g env l) r
        ∧ test q (.act i g env l) r = true := by
  obtain ⟨tr, q, hrun, htest⟩ := Run.exists_of_exec S adm cmds p (fun _ q =>
    (Pool.exec S adm [.act i env] q).any fun next => next.1.all fun ev => test q ev next.2) h
  obtain ⟨⟨tr', r⟩, hexec, htest⟩ := (Option.any_eq_true _ _).1 htest
  simp only [Pool.exec] at hexec
  split at hexec
  next g act rest hthread =>
    split at hexec
    next hadm =>
      obtain ⟨rfl, rfl⟩ := by simpa using hexec
      exact ⟨tr, q, g, _, _, hrun, .act q i g act rest env hthread hadm, by simpa using htest⟩
    next => contradiction
  next => contradiction

end Prog
