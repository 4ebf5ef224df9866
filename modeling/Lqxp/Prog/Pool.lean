import Mathlib.Data.List.Induction
import Mathlib.Logic.Function.Basic
import Lqxp.Prog.Basic

/-!
This module contains pools of programs that run concurrently over one shared state: their runs under
any interleaving of atomic steps, and the two rules by which facts about single programs and single
steps become facts about whole runs.
-/

namespace Prog

/--
A family of programs, one for each request, together with the memory that a run of a program keeps
of its own labels.
-/
structure System (ι ε σ ℓ γ α : Type) where
  handle : ι → Prog ε σ ℓ α
  start : ι → γ
  next : γ → ℓ → γ

structure Thread (ε σ ℓ γ α : Type) where
  memory : γ
  rest : Prog ε σ ℓ α

structure Pool (ε σ ℓ γ α : Type) where
  state : σ
  threads : List (Thread ε σ ℓ γ α)

inductive Event (ι ε ℓ γ : Type) where
  /-- Thread `i` starts to serve a request. -/
  | start (i : Nat) (req : ι)
  /-- Thread `i`, whose memory is `g`, makes a step. -/
  | act (i : Nat) (g : γ) (env : ε) (label : ℓ)

variable {ι ε σ ℓ γ α : Type}

/--
One step of a pool: a request arrives, or one thread makes its next atomic step. `adm` restricts the
steps that are considered.
-/
inductive Step (S : System ι ε σ ℓ γ α) (adm : γ → ε → σ → ℓ → σ → Prop)
    : Pool ε σ ℓ γ α → Event ι ε ℓ γ → Pool ε σ ℓ γ α → Prop where
  | start (p : Pool ε σ ℓ γ α) (req : ι)
    : Step S adm p (.start p.threads.length req)
        { p with threads := p.threads ++ [⟨S.start req, S.handle req⟩] }
  | act (p : Pool ε σ ℓ γ α) (i : Nat) (g : γ) (act : ε → σ → ℓ × σ)
      (rest : ε → σ → Prog ε σ ℓ α) (env : ε)
      (hthread : p.threads[i]? = some ⟨g, .step act rest⟩)
      (hadm : adm g env p.state (act env p.state).1 (act env p.state).2)
    : Step S adm p (.act i g env (act env p.state).1)
        { state := (act env p.state).2
          threads := p.threads.set i ⟨S.next g (act env p.state).1, rest env p.state⟩ }

theorem Step.mono {S : System ι ε σ ℓ γ α} {adm adm' : γ → ε → σ → ℓ → σ → Prop}
    {p q : Pool ε σ ℓ γ α} {ev : Event ι ε ℓ γ}
    (himp : ∀ g e s l s', adm g e s l s' → adm' g e s l s') (h : Step S adm p ev q)
    : Step S adm' p ev q := by
  cases h with
  | start req => exact .start _ req
  | act i g act rest env hthread hadm => exact .act _ i g act rest env hthread (himp _ _ _ _ _ hadm)

theorem Step.of_act {S : System ι ε σ ℓ γ α} {adm : γ → ε → σ → ℓ → σ → Prop} {p q : Pool ε σ ℓ γ α}
    {i : Nat} {g : γ} {env : ε} {l : ℓ} (h : Step S adm p (.act i g env l) q)
    : adm g env p.state l q.state ∧ ∃ prog, p.threads[i]? = some ⟨g, prog⟩
        ∧ ∃ prog', q.threads = p.threads.set i ⟨S.next g l, prog'⟩ := by
  generalize hev : Event.act i g env l = ev at h
  cases h with
  | start => contradiction
  | act i' g' act rest env' hthread hadm =>
    cases hev
    exact ⟨hadm, _, hthread, _, rfl⟩

def Pool.memory (p : Pool ε σ ℓ γ α) (i : Nat) : Option γ := p.threads[i]?.map (·.memory)

theorem Pool.memory_append (p : Pool ε σ ℓ γ α) (th : Thread ε σ ℓ γ α)
    : Pool.memory { p with threads := p.threads ++ [th] }
        = Function.update p.memory p.threads.length (some th.memory) := by
  funext i
  by_cases hi : i = p.threads.length
  . subst hi
    simp [memory]
  . rw [Function.update_of_ne hi, memory, memory, List.getElem?_append]
    split
    . rfl
    next hlt =>
      have hlen : [th].length ≤ i - p.threads.length := by
        simp only [List.length_singleton]
        omega
      rw [List.getElem?_eq_none hlen, List.getElem?_eq_none (by omega)]

theorem Pool.memory_set (p : Pool ε σ ℓ γ α) (s : σ) {i : Nat} (hi : i < p.threads.length)
    (th : Thread ε σ ℓ γ α)
    : Pool.memory { state := s, threads := p.threads.set i th }
        = Function.update p.memory i (some th.memory) := by
  funext j
  by_cases hj : j = i
  . subst hj
    simp [memory, hi]
  . rw [Function.update_of_ne hj, memory, memory, List.getElem?_set_ne (Ne.symm hj)]

theorem Step.memory_act {S : System ι ε σ ℓ γ α} {adm : γ → ε → σ → ℓ → σ → Prop}
    {p q : Pool ε σ ℓ γ α} {i : Nat} {g : γ} {env : ε} {l : ℓ} (h : Step S adm p (.act i g env l) q)
    : adm g env p.state l q.state ∧ p.memory i = some g
        ∧ q.memory = Function.update p.memory i (some (S.next g l)) := by
  generalize hev : Event.act i g env l = ev at h
  cases h with
  | start => contradiction
  | act i' g' act rest env' hthread hadm =>
    cases hev
    refine ⟨hadm, by simp [Pool.memory, hthread], ?_⟩
    exact Pool.memory_set p _ (List.getElem?_eq_some_iff.1 hthread).1 _

theorem Step.exists_memory {S : System ι ε σ ℓ γ α} {adm : γ → ε → σ → ℓ → σ → Prop}
    {p q : Pool ε σ ℓ γ α} {i j : Nat} {g : γ} {env : ε} {l : ℓ} {P : γ → Prop}
    (h : Step S adm p (.act i g env l) q) (hP : P (S.next g l) → P g)
    (hj : ∃ g, q.memory j = some g ∧ P g) : ∃ g, p.memory j = some g ∧ P g := by
  obtain ⟨-, hmemory, hmemory'⟩ := h.memory_act
  obtain ⟨g', hg', hPg'⟩ := hj
  rw [hmemory'] at hg'
  by_cases hji : j = i
  . subst hji
    rw [Function.update_self] at hg'
    obtain rfl := Option.some.inj hg'
    exact ⟨g, hmemory, hP hPg'⟩
  . rw [Function.update_of_ne hji] at hg'
    exact ⟨g', hg', hPg'⟩

/--
The runs of a pool, with their events in order.
-/
inductive Run (S : System ι ε σ ℓ γ α) (adm : γ → ε → σ → ℓ → σ → Prop)
    : Pool ε σ ℓ γ α → List (Event ι ε ℓ γ) → Pool ε σ ℓ γ α → Prop where
  | nil (p : Pool ε σ ℓ γ α) : Run S adm p [] p
  | snoc {p q r : Pool ε σ ℓ γ α} {tr : List (Event ι ε ℓ γ)} {ev : Event ι ε ℓ γ}
      (run : Run S adm p tr q) (step : Step S adm q ev r)
    : Run S adm p (tr ++ [ev]) r

namespace Run

variable {S : System ι ε σ ℓ γ α} {adm adm' : γ → ε → σ → ℓ → σ → Prop}
variable {p q r : Pool ε σ ℓ γ α} {tr tr' : List (Event ι ε ℓ γ)}

theorem append (h : Run S adm p tr q) (h' : Run S adm q tr' r) : Run S adm p (tr ++ tr') r := by
  induction h' with
  | nil => simpa using h
  | snoc run step ih =>
    rw [← List.append_assoc]
    exact .snoc ih step

theorem split (h : Run S adm p (tr ++ tr') r)
    : ∃ q, Run S adm p tr q ∧ Run S adm q tr' r := by
  induction tr' using List.reverseRecOn generalizing r with
  | nil => exact ⟨r, by simpa using h, .nil r⟩
  | append_singleton tr' ev ih =>
    rw [← List.append_assoc] at h
    generalize htr : tr ++ tr' ++ [ev] = full at h
    cases h with
    | nil => simp at htr
    | snoc run step =>
      obtain ⟨rfl, heq⟩ := List.append_inj' htr rfl
      obtain rfl : ev = _ := by simpa using heq
      obtain ⟨q, hq, hrun⟩ := ih run
      exact ⟨q, hq, .snoc hrun step⟩

theorem split_at {ev : Event ι ε ℓ γ} (h : Run S adm p (tr ++ ev :: tr') r)
    : ∃ q q', Run S adm p tr q ∧ Step S adm q ev q' ∧ Run S adm q' tr' r := by
  have happend : tr ++ ev :: tr' = (tr ++ [ev]) ++ tr' := by simp
  obtain ⟨q', hpre, hpost⟩ := (happend ▸ h).split
  generalize hfull : tr ++ [ev] = full at hpre
  cases hpre with
  | nil => simp at hfull
  | snoc run step =>
    obtain ⟨rfl, heq⟩ := List.append_inj' hfull rfl
    obtain rfl : ev = _ := by simpa using heq
    exact ⟨_, q', run, step, hpost⟩

theorem invariant (P : σ → Prop) (G : γ → Prop) (hstart : ∀ req, G (S.start req))
    (hstep : ∀ g e s l s', adm g e s l s' → P s → G g → P s' ∧ G (S.next g l))
    (h : Run S adm p tr q) (hp : P p.state) (hg : ∀ th ∈ p.threads, G th.memory)
    : P q.state ∧ ∀ th ∈ q.threads, G th.memory := by
  induction h with
  | nil => exact ⟨hp, hg⟩
  | snoc run step ih =>
    obtain ⟨hstate, hthreads⟩ := ih
    cases step with
    | start req =>
      refine ⟨hstate, ?_⟩
      intro th hth
      rcases List.mem_append.1 hth with hold | hnew
      . exact hthreads th hold
      . obtain rfl : th = _ := by simpa using hnew
        exact hstart req
    | act i g act rest env hthread hadm =>
      have hmem := hthreads _ (List.mem_of_getElem? hthread)
      obtain ⟨hstate', hmem'⟩ := hstep _ _ _ _ _ hadm hstate hmem
      refine ⟨hstate', ?_⟩
      intro th hth
      rcases List.mem_or_eq_of_mem_set hth with hold | rfl
      . exact hthreads th hold
      . exact hmem'

theorem state_invariant (P : σ → Prop) (hstep : ∀ g e s l s', adm g e s l s' → P s → P s')
    (h : Run S adm p tr q) (hp : P p.state) : P q.state := by
  induction h with
  | nil => exact hp
  | snoc run step ih =>
    cases step with
    | start req => exact ih
    | act i g act rest env hthread hadm => exact hstep _ _ _ _ _ hadm ih

theorem memory_induction (P : List (Event ι ε ℓ γ) → σ → (Nat → Option γ) → Prop)
    (hnil : P [] p.state p.memory)
    (hstart : ∀ tr s m i req, m i = none → P tr s m →
      P (tr ++ [.start i req]) s (Function.update m i (some (S.start req))))
    (hact : ∀ tr s m i g e l s', m i = some g → adm g e s l s' → P tr s m →
      P (tr ++ [.act i g e l]) s' (Function.update m i (some (S.next g l))))
    (h : Run S adm p tr q) : P tr q.state q.memory := by
  induction h with
  | nil => exact hnil
  | @snoc q r tr ev run step ih =>
    cases step with
    | start req =>
      rw [Pool.memory_append]
      exact hstart _ _ _ _ req (by simp [Pool.memory]) ih
    | act i g act rest env hthread hadm =>
      rw [Pool.memory_set q _ (List.getElem?_eq_some_iff.1 hthread).1]
      exact hact _ _ _ i g env _ _ (by simp [Pool.memory, hthread]) hadm ih

theorem of_spec {ok : γ → ε → σ → ℓ → σ → Prop} {post : α → γ → Prop}
    (hspec : ∀ req, Spec S.next ok post (S.handle req) (S.start req))
    (h : Run S adm p tr q) (hp : ∀ th ∈ p.threads, Spec S.next ok post th.rest th.memory)
    : Run S (fun g e s l s' => adm g e s l s' ∧ ok g e s l s') p tr q
        ∧ ∀ th ∈ q.threads, Spec S.next ok post th.rest th.memory := by
  induction h with
  | nil => exact ⟨.nil _, hp⟩
  | snoc run step ih =>
    obtain ⟨hrun, hthreads⟩ := ih
    cases step with
    | start req =>
      refine ⟨.snoc hrun (.start _ req), ?_⟩
      intro th hth
      rcases List.mem_append.1 hth with hold | hnew
      . exact hthreads th hold
      . obtain rfl : th = _ := by simpa using hnew
        exact hspec req
    | act i g act rest env hthread hadm =>
      obtain ⟨hok, hrest⟩ := hthreads _ (List.mem_of_getElem? hthread) env _
      refine ⟨.snoc hrun (.act _ i g act rest env hthread ⟨hadm, hok⟩), ?_⟩
      intro th hth
      rcases List.mem_or_eq_of_mem_set hth with hold | rfl
      . exact hthreads th hold
      . exact hrest

theorem mono (himp : ∀ g e s l s', adm g e s l s' → adm' g e s l s') (h : Run S adm p tr q)
    : Run S adm' p tr q := by
  induction h with
  | nil => exact .nil _
  | snoc run step ih => exact .snoc ih (step.mono himp)

theorem restrict (good : γ → ε → ℓ → Prop) (h : Run S adm p tr q)
    (hgood : ∀ i g e l, .act i g e l ∈ tr → good g e l)
    : Run S (fun g e s l s' => adm g e s l s' ∧ good g e l) p tr q := by
  induction h with
  | nil => exact .nil _
  | snoc run step ih =>
    have hrun := ih fun i g e l hmem => hgood i g e l (List.mem_append_left _ hmem)
    cases step with
    | start req => exact .snoc hrun (.start _ req)
    | act i g act rest env hthread hadm =>
      refine .snoc hrun (.act _ i g act rest env hthread ⟨hadm, ?_⟩)
      exact hgood i g env _ (List.mem_append_right _ (List.mem_singleton.2 rfl))

theorem exists_act (Q : γ → Prop) (hstart : ∀ req, ¬ Q (S.start req)) (h : Run S adm p tr q)
    (hp : p.threads = []) {i : Nat} {th : Thread ε σ ℓ γ α} (hth : q.threads[i]? = some th)
    (hQ : Q th.memory)
    : ∃ pre g e l post, tr = pre ++ .act i g e l :: post ∧ ¬ Q g ∧ Q (S.next g l) := by
  induction h generalizing i th with
  | nil => simp [hp] at hth
  | snoc run step ih =>
    cases step with
    | start req =>
      rw [List.getElem?_append] at hth
      split at hth
      . obtain ⟨pre, g, e, l, post, rfl, hrest⟩ := ih hth hQ
        exact ⟨pre, g, e, l, _, List.append_assoc _ _ _, hrest⟩
      . obtain rfl : th = _ := List.mem_singleton.1 (List.mem_of_getElem? hth)
        exact absurd hQ (hstart req)
    | act j g act rest env hthread hadm =>
      rw [List.getElem?_set] at hth
      split at hth
      next hij =>
        subst hij
        split at hth
        . obtain rfl := Option.some.inj hth
          by_cases hold : Q g
          . obtain ⟨pre, g, e, l, post, rfl, hrest⟩ := ih hthread hold
            exact ⟨pre, g, e, l, _, List.append_assoc _ _ _, hrest⟩
          . exact ⟨_, g, env, _, [], rfl, hold, hQ⟩
        . simp at hth
      next =>
        obtain ⟨pre, g, e, l, post, rfl, hrest⟩ := ih hth hQ
        exact ⟨pre, g, e, l, _, List.append_assoc _ _ _, hrest⟩

end Run

end Prog
