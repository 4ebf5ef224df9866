import Mathlib.Data.List.Infix
import Lqxp.Prog.Emits

/-!
This module contains rely-guarantee reasoning over histories: what a program upholds while others run in between,
when all of them uphold it or move the state along a relation, what it may remember of the steps made so far, what
it may show of all that they see, and what it makes good before it ends.
-/

namespace Prog

variable {ι ε σ ℓ γ α β : Type}

/--
With the steps `h` behind it, a program keeps the relation `I` between all steps made and the state whenever it is
its turn, whatever steps of others come before that. In the end the result and the steps satisfy `Q`.
-/
def Upholds (I : List (ε × ℓ) → σ → Prop) (Q : α → List (ε × ℓ) → Prop)
    : Prog ε σ ℓ α → List (ε × ℓ) → Prop
  | .done a, h => Q a h
  | .step act rest, h =>
    ∀ h' e s, h <+: h' → I h' s →
      I (h' ++ [(e, (act e s).1)]) (act e s).2 ∧ Upholds I Q (rest e s) (h' ++ [(e, (act e s).1)])

namespace Upholds

variable {I : List (ε × ℓ) → σ → Prop} {Q Q' : α → List (ε × ℓ) → Prop} {R : β → List (ε × ℓ) → Prop}
  {h h' : List (ε × ℓ)}

theorem pure {a : α} (hQ : Q a h) : Upholds I Q (pure a) h := hQ

theorem bind {p : Prog ε σ ℓ α} {f : α → Prog ε σ ℓ β} (hp : Upholds I Q p h)
    (hf : ∀ a h', h <+: h' → Q a h' → Upholds I R (f a) h') : Upholds I R (p >>= f) h := by
  induction p generalizing h with
  | done a => exact hf a h (List.prefix_refl h) hp
  | step act rest ih =>
    intro h' e s hbegins hI
    obtain ⟨hkept, hrest⟩ := hp h' e s hbegins hI
    exact ⟨hkept, ih e s hrest fun a h'' hbegins' => hf a h'' ((hbegins.trans (List.prefix_append _ _)).trans hbegins')⟩

theorem atom {f : ε → σ → α × ℓ × σ}
    (hf : ∀ h' e s, h <+: h' → I h' s →
      I (h' ++ [(e, (f e s).2.1)]) (f e s).2.2 ∧ Q (f e s).1 (h' ++ [(e, (f e s).2.1)]))
    : Upholds I Q (Prog.atom f) h := hf

theorem mono {p : Prog ε σ ℓ α} (hp : Upholds I Q p h) (hQ : ∀ a h', h <+: h' → Q a h' → Q' a h')
    : Upholds I Q' p h := by
  induction p generalizing h with
  | done a => exact hQ a h (List.prefix_refl h) hp
  | step act rest ih =>
    intro h' e s hbegins hI
    obtain ⟨hkept, hrest⟩ := hp h' e s hbegins hI
    exact ⟨hkept, ih e s hrest fun a h'' hbegins' => hQ a h'' ((hbegins.trans (List.prefix_append _ _)).trans hbegins')⟩

theorem extend {p : Prog ε σ ℓ α} (hp : Upholds I (fun _ _ => True) p h) (hbegins : h <+: h')
    : Upholds I (fun _ _ => True) p h' := by
  cases p with
  | done a => trivial
  | step act rest => exact fun h'' e s hbegins' => hp h'' e s (hbegins.trans hbegins')

theorem of_spec {ok : Unit → ε → σ → ℓ → σ → Prop} {p : Prog ε σ ℓ α}
    (hok : ∀ h e s l s', ok () e s l s' → I h s → I (h ++ [(e, l)]) s')
    (hp : Spec (fun _ _ => ()) ok (fun _ _ => True) p ()) : Upholds I (fun _ _ => True) p h := by
  induction p generalizing h with
  | done a => trivial
  | step act rest ih =>
    intro h' e s _ hI
    obtain ⟨hstep, hrest⟩ := hp e s
    exact ⟨hok _ _ _ _ _ hstep hI, ih e s hrest⟩

end Upholds

/--
The steps among the events of a run, with their inputs and labels.
-/
def steps (tr : List (Event ι ε ℓ γ)) : List (ε × ℓ) :=
  tr.filterMap fun
    | .start .. => none
    | .act _ _ e l => some (e, l)

theorem Run.of_upholds {S : System ι ε σ ℓ γ α} {adm : γ → ε → σ → ℓ → σ → Prop} {p q : Pool ε σ ℓ γ α}
    {tr : List (Event ι ε ℓ γ)} {I : List (ε × ℓ) → σ → Prop}
    (hhandle : ∀ req, Upholds I (fun _ _ => True) (S.handle req) []) (h : Run S adm p tr q) (hp : p.threads = [])
    (hI : I [] p.state) : I (steps tr) q.state := by
  suffices hall : I (steps tr) q.state ∧ ∀ th ∈ q.threads, Upholds I (fun _ _ => True) th.rest (steps tr) from hall.1
  induction h with
  | nil => exact ⟨hI, by simp [hp]⟩
  | @snoc q r tr ev run step ih =>
    obtain ⟨hstate, hthreads⟩ := ih
    cases step with
    | start req =>
      have hsteps : steps (tr ++ [Event.start q.threads.length req]) = steps tr := by simp [steps]
      rw [hsteps]
      refine ⟨hstate, fun th hth => ?_⟩
      rcases List.mem_append.1 hth with hold | hnew
      . exact hthreads th hold
      . obtain rfl := List.mem_singleton.1 hnew
        exact (hhandle req).extend (List.nil_prefix)
    | act i g act rest env hthread hadm =>
      have hsteps : steps (tr ++ [Event.act i g env (act env q.state).1])
          = steps tr ++ [(env, (act env q.state).1)] := by simp [steps]
      rw [hsteps]
      obtain ⟨hkept, hrest⟩ := hthreads _ (List.mem_of_getElem? hthread) _ env _ (List.prefix_refl _) hstate
      refine ⟨hkept, fun th hth => ?_⟩
      rcases List.mem_or_eq_of_mem_set hth with hold | rfl
      . exact (hthreads th hold).extend (List.prefix_append _ _)
      . exact hrest

section Amid

/--
The runs of a program amid others: before each of its steps they may have moved the state along `rely`.
-/
inductive Amid (rely : σ → σ → Prop) : Prog ε σ ℓ α → σ → List (ε × ℓ) → α → σ → Prop where
  | done (a : α) (s : σ) : Amid rely (.done a) s [] a s
  | step {act : ε → σ → ℓ × σ} {next : ε → σ → Prog ε σ ℓ α} {s s' s'' : σ} {tr : List (ε × ℓ)} {a : α} (e : ε)
      (hrely : rely s s') (run : Amid rely (next e s') (act e s').2 tr a s'')
    : Amid rely (.step act next) s ((e, (act e s').1) :: tr) a s''

variable {rely : σ → σ → Prop} {p : Prog ε σ ℓ α} {s s' : σ} {tr : List (ε × ℓ)} {a : α}

theorem Trace.amid (hrefl : ∀ s, rely s s) (run : Trace p s tr a s') : Amid rely p s tr a s' := by
  induction run with
  | done a s => exact .done a s
  | step e run ih => exact .step e (hrefl _) ih

theorem Amid.of_spec {ok : List ℓ → ε → σ → ℓ → σ → Prop} {post : α → List ℓ → Prop} {I : List ℓ → σ → Prop}
    {h : List ℓ} (hrely : ∀ h s s', rely s s' → I h s → I h s')
    (hstep : ∀ h e s l s', ok h e s l s' → I h s → I (h ++ [l]) s')
    (hspec : Spec (fun h l => h ++ [l]) ok post p h) (run : Amid rely p s tr a s') (hinv : I h s)
    : I (h ++ tr.map (·.2)) s' := by
  induction run generalizing h with
  | done a s => rwa [List.map_nil, List.append_nil]
  | step e hmove run ih =>
    obtain ⟨hok, hrest⟩ := hspec e _
    have hend := ih hrest (hstep _ _ _ _ _ hok (hrely _ _ _ hmove hinv))
    rwa [List.append_assoc, List.singleton_append] at hend

theorem Amid.forall_of_spec {P : ε → ℓ → Prop} {post : α → Unit → Prop}
    (hspec : Spec (fun _ _ => ()) (fun _ e _ l _ => P e l) post p ()) (run : Amid rely p s tr a s')
    : ∀ x ∈ tr, P x.1 x.2 := by
  induction run with
  | done a s => exact fun x hx => absurd hx List.not_mem_nil
  | step e hmove run ih =>
    obtain ⟨hlabel, hrest⟩ := hspec e _
    intro x hx
    rcases List.mem_cons.1 hx with rfl | hx
    . exact hlabel
    . exact ih hrest x hx

end Amid

section Observation

/--
A program that shows in the labels of its steps all that these see: their inputs and the state. It makes the same
steps otherwise.
-/
def observe : Prog ε σ ℓ α → Prog ε σ (ε × σ × ℓ) α
  | .done a => .done a
  | .step act next =>
    .step (fun e s => ((e, s, (act e s).1), (act e s).2)) fun e s => (next e s).observe

theorem observe_bind (p : Prog ε σ ℓ α) (f : α → Prog ε σ ℓ β)
    : (p >>= f).observe = p.observe >>= fun a => (f a).observe := by
  induction p with
  | done a => rfl
  | step act next ih =>
    rw [step_bind, observe, observe, step_bind]
    congr
    funext e s
    exact ih e s

/--
The memory of an observed program may depend on all that its steps see.
-/
abbrev Observed (next : γ → ε × σ × ℓ → γ) (ok : γ → ε → σ → ℓ → σ → Prop) (post : α → γ → Prop)
    (p : Prog ε σ ℓ α) (g : γ) : Prop :=
  Spec next (fun g e s l s' => l.1 = e ∧ l.2.1 = s ∧ ok g e s l.2.2 s') post p.observe g

namespace Observed

variable {next : γ → ε × σ × ℓ → γ} {ok : γ → ε → σ → ℓ → σ → Prop}

theorem bind {p : Prog ε σ ℓ α} {f : α → Prog ε σ ℓ β} {post : β → γ → Prop} {g : γ}
    (h : Observed next ok (fun a g' => Observed next ok post (f a) g') p g)
    : Observed next ok post (p >>= f) g := by
  rw [Observed, observe_bind]
  exact Spec.bind_iff.2 h

theorem atom {f : ε → σ → α × ℓ × σ} {post : α → γ → Prop} {g : γ}
    (h : ∀ e s, ok g e s (f e s).2.1 (f e s).2.2 ∧ post (f e s).1 (next g (e, s, (f e s).2.1)))
    : Observed next ok post (Prog.atom f) g :=
  fun e s => ⟨⟨rfl, rfl, (h e s).1⟩, (h e s).2⟩

end Observed

end Observation

section Guarantees

/--
As long as the others keep `P`, so does a program, and what it shows is `good` for the state in which it shows
it. In the end its result satisfies `Q`.
-/
def Guarantees (P : σ → Prop) (good : σ → ℓ → Prop) (Q : α → Prop) : Prog ε σ ℓ α → Prop
  | .done a => Q a
  | .step act rest => ∀ e s, P s → good s (act e s).1 ∧ P (act e s).2 ∧ Guarantees P good Q (rest e s)

namespace Guarantees

variable {P : σ → Prop} {good : σ → ℓ → Prop} {Q Q' : α → Prop} {R : β → Prop}

theorem pure {a : α} (hQ : Q a) : Guarantees P good Q (pure a : Prog ε σ ℓ α) := hQ

theorem bind {p : Prog ε σ ℓ α} {f : α → Prog ε σ ℓ β} (hp : Guarantees P good Q p)
    (hf : ∀ a, Q a → Guarantees P good R (f a)) : Guarantees P good R (p >>= f) := by
  induction p with
  | done a => exact hf a hp
  | step act rest ih =>
    intro e s hs
    obtain ⟨hgood, hkept, hrest⟩ := hp e s hs
    exact ⟨hgood, hkept, ih e s hrest⟩

theorem atom {f : ε → σ → α × ℓ × σ} (h : ∀ e s, P s → good s (f e s).2.1 ∧ P (f e s).2.2 ∧ Q (f e s).1)
    : Guarantees P good Q (Prog.atom f) := h

theorem of_amid {rely : σ → σ → Prop} (hrely : ∀ s s', rely s s' → P s → P s') {p : Prog ε σ ℓ α}
    (hp : Guarantees P good Q p) {s s' : σ} {tr : List (ε × ε × σ × ℓ)} {a : α}
    (run : Amid rely p.observe s tr a s') (hs : P s) : ∀ x ∈ tr, good x.2.2.1 x.2.2.2 := by
  induction p generalizing s tr with
  | done a =>
    cases run
    exact fun x hx => absurd hx List.not_mem_nil
  | step act rest ih =>
    rcases run with _ | ⟨e, hmove, run⟩
    obtain ⟨hgood, hkept, hrest⟩ := hp e _ (hrely _ _ hmove hs)
    intro x hx
    rcases List.mem_cons.1 hx with rfl | hx
    . exact hgood
    . exact ih e _ hrest run hkept x hx

end Guarantees

end Guarantees

section Recording

/--
A step of a program as it is recorded: the state that it finds, its label and the state that it leaves behind.
-/
structure Move (σ ℓ : Type) where
  before : σ
  label : ℓ
  after : σ

/--
A program that shows in the labels of its steps what they do to the state. It makes the same steps otherwise.
-/
def recorded : Prog ε σ ℓ α → Prog ε σ (Move σ ℓ) α
  | .done a => .done a
  | .step act next => .step (fun e s => (⟨s, (act e s).1, (act e s).2⟩, (act e s).2)) fun e s => (next e s).recorded

def met (tr : List (ε × Move σ ℓ)) : List σ := tr.flatMap fun x => [x.2.before, x.2.after]

/--
As long as the others keep `P`, so does a program, and each of its steps is `ok` for the states that it has come
across before. In the end its result and these states satisfy `Q`.
-/
def Abides (P : σ → Prop) (ok : List σ → ε → σ → ℓ → σ → Prop) (Q : α → List σ → Prop)
    : Prog ε σ ℓ α → List σ → Prop
  | .done a, h => Q a h
  | .step act rest, h =>
    ∀ e s, P s →
      ok h e s (act e s).1 (act e s).2 ∧ P (act e s).2 ∧ Abides P ok Q (rest e s) (h ++ [s, (act e s).2])

namespace Abides

variable {P : σ → Prop} {ok : List σ → ε → σ → ℓ → σ → Prop} {Q Q' : α → List σ → Prop} {R : β → List σ → Prop}
  {h : List σ}

theorem pure {a : α} (hQ : Q a h) : Abides P ok Q (pure a : Prog ε σ ℓ α) h := hQ

theorem bind {p : Prog ε σ ℓ α} {f : α → Prog ε σ ℓ β} (hp : Abides P ok Q p h)
    (hf : ∀ a h', h <+: h' → Q a h' → Abides P ok R (f a) h') : Abides P ok R (p >>= f) h := by
  induction p generalizing h with
  | done a => exact hf a h (List.prefix_refl h) hp
  | step act rest ih =>
    intro e s hs
    obtain ⟨hok, hkept, hrest⟩ := hp e s hs
    exact ⟨hok, hkept, ih e s hrest fun a h' hbegins => hf a h' ((List.prefix_append _ _).trans hbegins)⟩

theorem atom {f : ε → σ → α × ℓ × σ}
    (hf : ∀ e s, P s →
      ok h e s (f e s).2.1 (f e s).2.2 ∧ P (f e s).2.2 ∧ Q (f e s).1 (h ++ [s, (f e s).2.2]))
    : Abides P ok Q (Prog.atom f) h := hf

theorem mono {p : Prog ε σ ℓ α} (hp : Abides P ok Q p h) (hQ : ∀ a h', h <+: h' → Q a h' → Q' a h')
    : Abides P ok Q' p h := by
  induction p generalizing h with
  | done a => exact hQ a h (List.prefix_refl h) hp
  | step act rest ih =>
    intro e s hs
    obtain ⟨hok, hkept, hrest⟩ := hp e s hs
    exact ⟨hok, hkept, ih e s hrest fun a h' hbegins => hQ a h' ((List.prefix_append _ _).trans hbegins)⟩

theorem zoom {ε' σ' ℓ' : Type} (v : View ε σ ℓ ε' σ' ℓ') {P' : σ' → Prop}
    {ok' : List σ' → ε' → σ' → ℓ' → σ' → Prop} (hP : ∀ s, P' s → P (v.get s)) (hP' : ∀ t s, P' s → P t → P' (v.put t s))
    (hok : ∀ h e s l t, P' s → ok (h.map v.get) (v.env e) (v.get s) l t → ok' h e s (v.tag s l) (v.put t s))
    {p : Prog ε σ ℓ α} {h' : List σ'} (hp : Abides P ok Q p (h'.map v.get))
    : Abides P' ok' (fun a h' => Q a (h'.map v.get)) (p.zoom v) h' := by
  induction p generalizing h' with
  | done a => exact hp
  | step act rest ih =>
    intro e s hs
    obtain ⟨hstep, hkept, hrest⟩ := hp (v.env e) (v.get s) (hP s hs)
    refine ⟨hok _ _ _ _ _ hs hstep, hP' _ _ hs hkept, ih _ _ ?_⟩
    rwa [List.map_append, List.map_cons, List.map_singleton, v.get_put]

theorem of_amid {rely : σ → σ → Prop} (hrely : ∀ s s', rely s s' → P s → P s') {p : Prog ε σ ℓ α}
    {s s' : σ} {tr : List (ε × Move σ ℓ)} {a : α} (hp : Abides P ok Q p h)
    (run : Amid rely p.recorded s tr a s') (hs : P s)
    : P s' ∧ Q a (h ++ met tr)
        ∧ ∀ tr₁ x tr₂, tr = tr₁ ++ x :: tr₂ → ok (h ++ met tr₁) x.1 x.2.before x.2.label x.2.after := by
  induction p generalizing h s tr with
  | done a =>
    cases run
    rw [met, List.flatMap_nil, List.append_nil]
    exact ⟨hs, hp, fun tr₁ x tr₂ htr => absurd htr (by simp)⟩
  | step act rest ih =>
    rcases run with _ | ⟨e, hmove, run⟩
    obtain ⟨hok, hkept, hrest⟩ := hp e _ (hrely _ _ hmove hs)
    obtain ⟨hend, hQ, hall⟩ := ih e _ hrest run hkept
    refine ⟨hend, by rwa [List.append_assoc] at hQ, fun tr₁ x tr₂ htr => ?_⟩
    rcases tr₁ with _ | ⟨y, tr₁⟩
    . obtain ⟨rfl, -⟩ := List.cons.inj htr
      rwa [met, List.flatMap_nil, List.append_nil]
    . obtain ⟨rfl, htail⟩ := List.cons.inj htr
      have hx := hall tr₁ x tr₂ htail
      rwa [List.append_assoc] at hx

end Abides

end Recording

section Successes

/--
A program whose result satisfies `Q` has made a step that is `want`ed.
-/
def Makes (want : ℓ → Prop) (Q : α → Prop) : Prog ε σ ℓ α → Prop
  | .done a => ¬ Q a
  | .step act rest => ∀ e s, want (act e s).1 ∨ Makes want Q (rest e s)

namespace Makes

variable {want : ℓ → Prop} {Q : α → Prop} {R : β → Prop} {p : Prog ε σ ℓ α} {f : α → Prog ε σ ℓ β}

theorem atom {g : ε → σ → α × ℓ × σ} (h : ∀ e s, want (g e s).2.1 ∨ ¬ Q (g e s).1) : Makes want Q (Prog.atom g) := h

theorem bind (hp : Makes want Q p) (hf : ∀ a, ¬ Q a → Makes want R (f a)) : Makes want R (p >>= f) := by
  induction p with
  | done a => exact hf a hp
  | step act rest ih => exact fun e s => (hp e s).imp_right (ih e s)

theorem bind_right (hf : ∀ a, Makes want R (f a)) : Makes want R (p >>= f) := by
  induction p with
  | done a => exact hf a
  | step act rest ih => exact fun e s => .inr (ih e s)

theorem of_amid {rely : σ → σ → Prop} {s s' : σ} {tr : List (ε × ℓ)} {a : α} (hp : Makes want Q p)
    (run : Amid rely p s tr a s') (ha : Q a) : ∃ x ∈ tr, want x.2 := by
  induction run with
  | done a s => exact absurd ha hp
  | step e hrely run ih =>
    rcases hp e _ with hwant | hrest
    . exact ⟨_, .head _, hwant⟩
    . obtain ⟨x, hx, hwant⟩ := ih hrest ha
      exact ⟨x, .tail _ hx, hwant⟩

end Makes

end Successes

section Debts

variable (P A : σ → Prop)

/--
Before a program ends, it makes a step after which `A` holds, as long as the others keep `P`, unless its result is one
of the `excused` ones.
-/
def Owes (excused : α → Prop) : Prog ε σ ℓ α → Prop
  | .done a => excused a
  | .step act rest => ∀ e s, P s → A (act e s).2 ∨ Owes excused (rest e s)

/--
Every step of a program keeps `P` and `A`, as long as the others keep `P`.
-/
def Conserves : Prog ε σ ℓ α → Prop
  | .done _ => True
  | .step act rest => ∀ e s, P s → P (act e s).2 ∧ (A s → A (act e s).2) ∧ Conserves (rest e s)

/--
Whenever a step of a program ends `A`, the rest of the program makes good for it. Every step keeps `P`.
-/
def Restores (excused : α → Prop) : Prog ε σ ℓ α → Prop
  | .done _ => True
  | .step act rest =>
    ∀ e s, P s →
      P (act e s).2 ∧ (A s → A (act e s).2 ∨ Owes P A excused (rest e s)) ∧ Restores excused (rest e s)

variable {P A} {p : Prog ε σ ℓ α} {f : α → Prog ε σ ℓ β} {excused : α → Prop} {excused' : β → Prop}

theorem Owes.bind (hp : Owes P A excused p) (hf : ∀ a, excused a → Owes P A excused' (f a))
    : Owes P A excused' (p >>= f) := by
  induction p with
  | done a => exact hf a hp
  | step act rest ih => exact fun e s hs => (hp e s hs).imp_right (ih e s)

theorem Owes.of_forall (h : ∀ a, excused a) (p : Prog ε σ ℓ α) : Owes P A excused p := by
  induction p with
  | done a => exact h a
  | step act rest ih => exact fun e s _ => .inr (ih e s)

theorem Owes.bind_right (h : ∀ a, Owes P A excused' (f a)) : Owes P A excused' (p >>= f) :=
  (Owes.of_forall (fun _ => trivial) p).bind fun a _ => h a

theorem Owes.mono {weaker : α → Prop} (hp : Owes P A excused p) (h : ∀ a, excused a → weaker a)
    : Owes P A weaker p := by
  induction p with
  | done a => exact h a hp
  | step act rest ih => exact fun e s hs => (hp e s hs).imp_right (ih e s)

theorem Conserves.bind (hp : Conserves P A p) (hf : ∀ a, Conserves P A (f a)) : Conserves P A (p >>= f) := by
  induction p with
  | done a => exact hf a
  | step act rest ih =>
    intro e s hs
    obtain ⟨hkept, hA, hrest⟩ := hp e s hs
    exact ⟨hkept, hA, ih e s hrest⟩

theorem Conserves.of_abides {P' : σ → Prop} {ok : List σ → ε → σ → ℓ → σ → Prop} {Q : α → List σ → Prop} {h : List σ}
    (hP : ∀ s, P s → P' s) (hok : ∀ h e s l s', P s → ok h e s l s' → P' s' → P s' ∧ (A s → A s'))
    (hp : Abides P' ok Q p h) : Conserves P A p := by
  induction p generalizing h with
  | done a => trivial
  | step act rest ih =>
    intro e s hs
    obtain ⟨hstep, hkept, hrest⟩ := hp e s (hP s hs)
    obtain ⟨hkept, hA⟩ := hok _ _ _ _ _ hs hstep hkept
    exact ⟨hkept, hA, ih e s hrest⟩

theorem Conserves.of_spec {next : γ → ℓ → γ} {ok : γ → ε → σ → ℓ → σ → Prop} {post : α → γ → Prop} {g : γ}
    (I : γ → Prop) (hok : ∀ g e s l s', I g → P s → ok g e s l s' → P s' ∧ (A s → A s') ∧ I (next g l))
    (hp : Spec next ok post p g) (hg : I g) : Conserves P A p := by
  induction p generalizing g with
  | done a => trivial
  | step act rest ih =>
    intro e s hs
    obtain ⟨hstep, hrest⟩ := hp e s
    obtain ⟨hkept, hA, hnext⟩ := hok _ _ _ _ _ hg hs hstep
    exact ⟨hkept, hA, ih e s hrest hnext⟩

theorem Conserves.zoom {ε' σ' ℓ' : Type} (v : View ε σ ℓ ε' σ' ℓ') (h : Conserves P A p)
    : Conserves (fun s => P (v.get s)) (fun s => A (v.get s)) (p.zoom v) := by
  induction p with
  | done a => trivial
  | step act rest ih =>
    intro e s hs
    obtain ⟨hkept, hA, hrest⟩ := h (v.env e) (v.get s) hs
    change P (v.get (v.put _ s)) ∧ (A (v.get s) → A (v.get (v.put _ s))) ∧ _
    rw [v.get_put]
    exact ⟨hkept, hA, ih _ _ hrest⟩

theorem Owes.zoom {ε' σ' ℓ' : Type} (v : View ε σ ℓ ε' σ' ℓ') (h : Owes P A excused p)
    : Owes (fun s => P (v.get s)) (fun s => A (v.get s)) excused (p.zoom v) := by
  induction p with
  | done a => exact h
  | step act rest ih =>
    intro e s hs
    change A (v.get (v.put _ s)) ∨ _
    rw [v.get_put]
    exact (h (v.env e) (v.get s) hs).imp_right (ih _ _)

theorem Conserves.restores (h : Conserves P A p) : Restores P A excused p := by
  induction p with
  | done a => trivial
  | step act rest ih =>
    intro e s hs
    obtain ⟨hkept, hA, hrest⟩ := h e s hs
    exact ⟨hkept, fun hs => .inl (hA hs), ih e s hrest⟩

theorem Conserves.atom_bind {g : ε → σ → α × ℓ × σ}
    (h : ∀ e s, P s → P (g e s).2.2 ∧ (A s → A (g e s).2.2) ∧ Conserves P A (f (g e s).1))
    : Conserves P A (Prog.atom g >>= f) := h

theorem Restores.atom_bind {g : ε → σ → α × ℓ × σ}
    (h : ∀ e s, P s →
      P (g e s).2.2 ∧ (A s → A (g e s).2.2 ∨ Owes P A excused' (f (g e s).1)) ∧ Restores P A excused' (f (g e s).1))
    : Restores P A excused' (Prog.atom g >>= f) := h

theorem Owes.atom_bind {g : ε → σ → α × ℓ × σ} (h : ∀ e s, P s → A (g e s).2.2)
    : Owes P A excused' (Prog.atom g >>= f) := fun e s hs => .inl (h e s hs)

section Runs

variable {S : System ι ε σ ℓ γ α} {adm : γ → ε → σ → ℓ → σ → Prop} {p q : Pool ε σ ℓ γ α}
  {tr : List (Event ι ε ℓ γ)} {owner : ι → Prop} {excused : ι → α → Prop}

variable (P A owner excused tr) in
/--
`A` holds in a pool, or a thread of it still owes it. Each thread keeps or makes good for what it may end.
-/
structure Settled (q : Pool ε σ ℓ γ α) : Prop where
  kept : P q.state
  paid : A q.state ∨ ∃ i req th, Event.start i req ∈ tr ∧ owner req ∧ q.threads[i]? = some th
    ∧ Owes P A (excused req) th.rest
  threads (i : Nat) (th : Thread ε σ ℓ γ α) : q.threads[i]? = some th →
    ∃ req, Event.start i req ∈ tr ∧ (owner req ∧ Restores P A (excused req) th.rest ∨ Conserves P A th.rest)

theorem Settled.start {req : ι} {prog : Prog ε σ ℓ α} (h : Settled P A tr owner excused q) (g : γ)
    (hreq : owner req ∧ Restores P A (excused req) prog ∨ Conserves P A prog)
    : Settled P A (tr ++ [.start q.threads.length req]) owner excused
        { q with threads := q.threads ++ [⟨g, prog⟩] } := by
  refine ⟨h.kept, ?_, fun i th hth => ?_⟩
  . rcases h.paid with hA | ⟨i, req', th, hstart, howns, hth, howes⟩
    . exact .inl hA
    refine .inr ⟨i, req', th, List.mem_append_left _ hstart, howns, ?_, howes⟩
    rw [List.getElem?_append_left (List.getElem?_eq_some_iff.1 hth).1]
    exact hth
  . rcases Nat.lt_or_ge i q.threads.length with hi | hi
    . rw [List.getElem?_append_left hi] at hth
      obtain ⟨req', hstart, hkind⟩ := h.threads i th hth
      exact ⟨req', List.mem_append_left _ hstart, hkind⟩
    . obtain rfl : i = q.threads.length := by
        have hlt := (List.getElem?_eq_some_iff.1 hth).1
        rw [List.length_append, List.length_singleton] at hlt
        omega
      rw [List.getElem?_concat_length] at hth
      obtain rfl := Option.some.inj hth
      exact ⟨req, List.mem_append_right _ (List.mem_singleton_self _), hreq⟩

theorem Settled.act {i : Nat} {g g' : γ} {act : ε → σ → ℓ × σ} {rest : ε → σ → Prog ε σ ℓ α} {env : ε} {l : ℓ}
    (h : Settled P A tr owner excused q) (hthread : q.threads[i]? = some ⟨g, .step act rest⟩)
    : Settled P A (tr ++ [.act i g env l]) owner excused
        { state := (act env q.state).2, threads := q.threads.set i ⟨g', rest env q.state⟩ } := by
  have hlt := (List.getElem?_eq_some_iff.1 hthread).1
  obtain ⟨req, hstart, hkind⟩ := h.threads i _ hthread
  refine ⟨?_, ?_, fun j th hth => ?_⟩
  . rcases hkind with ⟨-, hrestores⟩ | hconserves
    . exact (hrestores env q.state h.kept).1
    . exact (hconserves env q.state h.kept).1
  . -- the thread that makes the step pays, owes from now on, or leaves everything as it is
    rcases h.paid with hA | ⟨j, req', th, hstart', howns, hth, howes⟩
    . rcases hkind with ⟨howns, hrestores⟩ | hconserves
      . refine ((hrestores env q.state h.kept).2.1 hA).imp_right fun howes => ?_
        exact ⟨i, req, _, List.mem_append_left _ hstart, howns, List.getElem?_set_self hlt, howes⟩
      . exact .inl ((hconserves env q.state h.kept).2.1 hA)
    . by_cases hji : i = j
      . subst hji
        obtain rfl := Option.some.inj (hthread.symm.trans hth)
        refine (howes env q.state h.kept).imp_right fun howes => ?_
        exact ⟨i, req', _, List.mem_append_left _ hstart', howns, List.getElem?_set_self hlt, howes⟩
      . refine .inr ⟨j, req', th, List.mem_append_left _ hstart', howns, ?_, howes⟩
        rw [List.getElem?_set_ne hji]
        exact hth
  . by_cases hji : i = j
    . subst hji
      rw [List.getElem?_set_self hlt] at hth
      obtain rfl := Option.some.inj hth
      refine ⟨req, List.mem_append_left _ hstart, hkind.imp ?_ ?_⟩
      . exact fun ⟨howns, hrestores⟩ => ⟨howns, (hrestores env q.state h.kept).2.2⟩
      . exact fun hconserves => (hconserves env q.state h.kept).2.2
    . rw [List.getElem?_set_ne hji] at hth
      obtain ⟨req', hstart', hkind'⟩ := h.threads j th hth
      exact ⟨req', List.mem_append_left _ hstart', hkind'⟩

/--
What every request keeps or makes good for holds in every run, unless a request of the second kind still owes it or has
been excused.
-/
theorem Run.restored (howner : ∀ req, owner req → Restores P A (excused req) (S.handle req))
    (hothers : ∀ req, ¬ owner req → Conserves P A (S.handle req)) (run : Run S adm p tr q) (hp : p.threads = [])
    (hP : P p.state) (hA : A p.state) : Settled P A tr owner excused q := by
  induction run with
  | nil => exact ⟨hP, .inl hA, fun i th hth => by simp [hp] at hth⟩
  | snoc run step ih =>
    cases step with
    | start req =>
      refine ih.start _ ?_
      by_cases howns : owner req
      . exact .inl ⟨howns, howner req howns⟩
      . exact .inr (hothers req howns)
    | act i g act rest env hthread hadm => exact ih.act hthread

end Runs

end Debts

end Prog
