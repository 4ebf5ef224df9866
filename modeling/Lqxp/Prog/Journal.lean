import Lqxp.Prog.Calls

/-!
This module contains computations that act on a world and keep a journal of their steps, and the rules by which
facts about the steps of the pieces become facts about the steps of the whole.
-/

structure Journal (ω ι : Type) where
  world : ω
  steps : List ι

namespace Journal

variable {ω ι ε α β : Type}

def note (step : ι) (journal : Journal ω ι) : Journal ω ι := { journal with steps := journal.steps ++ [step] }

def act (effect : ω → α × ω) (record : α → ι) : EStateM ε (Journal ω ι) α := fun journal =>
  let (a, world) := effect journal.world
  .ok a { world, steps := journal.steps ++ [record a] }

def look (view : ω → α) : EStateM ε (Journal ω ι) α := fun journal => .ok (view journal.world) journal

/--
Run a computation and go on with its answer, also when it fails.
-/
def attempt (x : EStateM ε (Journal ω ι) α) : EStateM ε (Journal ω ι) (Except ε α) := fun journal =>
  .ok (Calls.outcome x journal).1 (Calls.outcome x journal).2

/--
Run a computation between two notes, on its beginning and on its answer.
-/
def enclosed (began : ι) (returned : Except ε α → ι) (x : EStateM ε (Journal ω ι) α)
    : EStateM ε (Journal ω ι) α := fun journal =>
  match x (journal.note began) with
  | .ok a journal' => .ok a (journal'.note (returned (.ok a)))
  | .error err journal' => .error err (journal'.note (returned (.error err)))

variable (move : ι → ω → ω)

def replay (steps : List ι) (world : ω) : ω := steps.foldl (fun world step => move step world) world

@[simp]
theorem replay_append (before after : List ι) (world : ω)
    : replay move (before ++ after) world = replay move after (replay move before world) :=
  List.foldl_append

/--
All that a computation does is taking steps. `Q` holds of the world that it starts in, of these steps and of its
answer.
-/
def Takes (Q : ω → List ι → Except ε α → Prop) (x : EStateM ε (Journal ω ι) α) : Prop :=
  ∀ journal, ∃ steps,
    Q journal.world steps (Calls.outcome x journal).1
      ∧ (Calls.outcome x journal).2 = ⟨replay move steps journal.world, journal.steps ++ steps⟩

variable {move}

namespace Takes

variable {Q R : ω → List ι → Except ε α → Prop} {x : EStateM ε (Journal ω ι) α}

theorem mono (hx : Takes move Q x) (h : ∀ w steps r, Q w steps r → R w steps r) : Takes move R x := by
  intro journal
  obtain ⟨steps, hsteps, hend⟩ := hx journal
  exact ⟨steps, h _ _ _ hsteps, hend⟩

theorem and (hx : Takes move Q x) (hx' : Takes move R x)
    : Takes move (fun w steps r => Q w steps r ∧ R w steps r) x := by
  intro journal
  obtain ⟨steps, hsteps, hend⟩ := hx journal
  obtain ⟨steps', hsteps', hend'⟩ := hx' journal
  obtain rfl : steps = steps' := List.append_cancel_left (congrArg Journal.steps (hend.symm.trans hend'))
  exact ⟨steps, ⟨hsteps, hsteps'⟩, hend⟩

theorem pure (a : α)
    : Takes move (fun _ steps r => steps = [] ∧ r = .ok a) (Pure.pure a : EStateM ε (Journal ω ι) α) :=
  fun journal => ⟨[], ⟨rfl, rfl⟩, by rw [List.append_nil]; rfl⟩

theorem throw (err : ε)
    : Takes move (fun _ steps r => steps = [] ∧ r = .error err) (throw err : EStateM ε (Journal ω ι) α) :=
  fun journal => ⟨[], ⟨rfl, rfl⟩, by rw [List.append_nil]; rfl⟩

theorem look (view : ω → α)
    : Takes move (fun w steps r => steps = [] ∧ r = .ok (view w)) (look view : EStateM ε (Journal ω ι) α) :=
  fun journal => ⟨[], ⟨rfl, rfl⟩, by rw [List.append_nil]; rfl⟩

theorem act {effect : ω → α × ω} {record : α → ι} (h : ∀ w, move (record (effect w).1) w = (effect w).2)
    : Takes move (fun w steps r => steps = [record (effect w).1] ∧ r = .ok (effect w).1)
        (act effect record : EStateM ε (Journal ω ι) α) := by
  intro journal
  refine ⟨[record (effect journal.world).1], ⟨rfl, rfl⟩, ?_⟩
  rw [replay, List.foldl_cons, List.foldl_nil, h]
  rfl

theorem bind {x : EStateM ε (Journal ω ι) β} {f : β → EStateM ε (Journal ω ι) α}
    {Q : ω → List ι → Except ε β → Prop} {R : β → ω → List ι → Except ε α → Prop} (hx : Takes move Q x)
    (hf : ∀ b, Takes move (R b) (f b))
    : Takes move (fun w steps r =>
        (∃ err, Q w steps (.error err) ∧ r = .error err)
          ∨ ∃ b before after,
              steps = before ++ after ∧ Q w before (.ok b) ∧ R b (replay move before w) after r) (x >>= f) := by
  intro journal
  obtain ⟨before, hbefore, hmid⟩ := hx journal
  rw [Calls.outcome] at hbefore hmid
  rw [Calls.outcome, show (x >>= f) journal = EStateM.bind x f journal from rfl, EStateM.bind]
  cases hrun : x journal with
  | error err journal' =>
    simp only [hrun] at hbefore hmid
    exact ⟨before, .inl ⟨err, hbefore, rfl⟩, hmid⟩
  | ok b journal' =>
    simp only [hrun] at hbefore hmid
    subst hmid
    obtain ⟨after, hafter, hend⟩ := hf b ⟨replay move before journal.world, journal.steps ++ before⟩
    refine ⟨before ++ after, .inr ⟨b, before, after, rfl, hbefore, hafter⟩, ?_⟩
    rw [replay_append, ← List.append_assoc]
    exact hend

theorem attempt (hx : Takes move Q x)
    : Takes move (fun w steps r => ∃ answer, r = .ok answer ∧ Q w steps answer) (attempt x) := by
  intro journal
  obtain ⟨steps, hsteps, hend⟩ := hx journal
  exact ⟨steps, ⟨_, rfl, hsteps⟩, hend⟩

theorem enclosed {began : ι} {returned : Except ε α → ι} (hx : Takes move Q x) (hbegan : ∀ w, move began w = w)
    (hreturned : ∀ answer w, move (returned answer) w = w)
    : Takes move (fun w steps r => ∃ inner, steps = began :: inner ++ [returned r] ∧ Q w inner r)
        (enclosed began returned x) := by
  intro journal
  obtain ⟨inner, hinner, hend⟩ := hx (journal.note began)
  have hlast (answer : Except ε α) : replay move (began :: inner ++ [returned answer]) journal.world
      = replay move inner journal.world := by
    rw [replay_append, replay, List.foldl_cons, List.foldl_nil, hreturned, replay, List.foldl_cons, hbegan]
    rfl
  rw [Calls.outcome] at hinner hend
  rw [Calls.outcome, Journal.enclosed]
  cases hrun : x (journal.note began) with
  | ok a journal' =>
    simp only [hrun] at hinner hend ⊢
    refine ⟨_, ⟨inner, rfl, hinner⟩, ?_⟩
    rw [hlast, hend]
    simp [note]
  | error err journal' =>
    simp only [hrun] at hinner hend ⊢
    refine ⟨_, ⟨inner, rfl, hinner⟩, ?_⟩
    rw [hlast, hend]
    simp [note]

end Takes

/--
All steps are of the kind `P`, and those of a computation that succeeds are also of the kind `G`.
-/
abbrev Careful (move : ι → ω → ω) (P G : ι → Prop) (x : EStateM ε (Journal ω ι) α) : Prop :=
  Takes move (fun _ steps r => (∀ step ∈ steps, P step) ∧ ∀ a, r = .ok a → ∀ step ∈ steps, G step) x

namespace Careful

variable {P G : ι → Prop}

theorem of_nothing {Q : ω → List ι → Except ε α → Prop} {x : EStateM ε (Journal ω ι) α}
    (hx : Takes move (fun w steps r => steps = [] ∧ Q w steps r) x) : Careful move P G x :=
  hx.mono fun _ _ _ ⟨hnil, _⟩ => by simp [hnil]

theorem bind {x : EStateM ε (Journal ω ι) β} {f : β → EStateM ε (Journal ω ι) α} (hx : Careful move P G x)
    (hf : ∀ b, Careful move P G (f b)) : Careful move P G (x >>= f) := by
  refine (Takes.bind hx hf).mono fun w steps r h => ?_
  rcases h with ⟨err, ⟨hsteps, -⟩, rfl⟩ | ⟨b, before, after, rfl, ⟨hbefore, hbefore'⟩, hafter, hafter'⟩
  . exact ⟨hsteps, fun a ha => nomatch ha⟩
  . refine ⟨fun step hstep => ?_, fun a ha step hstep => ?_⟩
    . rcases List.mem_append.1 hstep with hstep | hstep
      . exact hbefore step hstep
      . exact hafter step hstep
    . rcases List.mem_append.1 hstep with hstep | hstep
      . exact hbefore' b rfl step hstep
      . exact hafter' a ha step hstep

end Careful

/--
If the computation succeeds, `E` holds of its answer and its steps.
-/
abbrev Yields (move : ι → ω → ω) (E : α → List ι → Prop) (x : EStateM ε (Journal ω ι) α) : Prop :=
  Takes move (fun _ steps r => ∀ a, r = .ok a → E a steps) x

namespace Yields

theorem pure {E : α → List ι → Prop} {a : α} (h : E a [])
    : Yields move E (Pure.pure a : EStateM ε (Journal ω ι) α) := by
  refine (Takes.pure a).mono fun w steps r ⟨hsteps, hr⟩ b hb => ?_
  rw [hr] at hb
  obtain rfl := Except.ok.inj hb
  rwa [hsteps]

theorem throw {E : α → List ι → Prop} (err : ε)
    : Yields move E (throw err : EStateM ε (Journal ω ι) α) := by
  refine (Takes.throw err).mono fun w steps r ⟨_, hr⟩ b hb => ?_
  rw [hr] at hb
  contradiction

theorem bind {E : β → List ι → Prop} {G : α → List ι → Prop} {x : EStateM ε (Journal ω ι) β}
    {f : β → EStateM ε (Journal ω ι) α} (hx : Yields move E x)
    (hf : ∀ b, Yields move (fun a after => ∀ before, E b before → G a (before ++ after)) (f b))
    : Yields move G (x >>= f) := by
  refine (Takes.bind hx hf).mono fun w steps r h a ha => ?_
  rcases h with ⟨err, -, hr⟩ | ⟨b, before, after, rfl, hbefore, hafter⟩
  . rw [hr] at ha
    contradiction
  . exact hafter a ha before (hbefore b rfl)

theorem mono {E F : α → List ι → Prop} {x : EStateM ε (Journal ω ι) α} (hx : Yields move E x)
    (h : ∀ a steps, E a steps → F a steps) : Yields move F x :=
  Takes.mono hx fun _ steps _ hE a ha => h a steps (hE a ha)

theorem after {E : α → List ι → Prop} {x : EStateM ε (Journal ω ι) β} {f : β → EStateM ε (Journal ω ι) α}
    {Q : ω → List ι → Except ε β → Prop} (hx : Takes move Q x) (hf : ∀ b, Yields move E (f b))
    (hE : ∀ a before steps, E a steps → E a (before ++ steps)) : Yields move E (x >>= f) :=
  bind (E := fun _ _ => True) (hx.mono fun _ _ _ _ _ _ => trivial) fun b =>
    (hf b).mono fun a steps h before _ => hE a before steps h

end Yields

/--
After the steps of `before`, each of the given steps is one that those before it allow.
-/
def Stepwise (A : List ι → ι → Prop) : List ι → List ι → Prop
  | _, [] => True
  | before, step :: steps => A before step ∧ Stepwise A (before ++ [step]) steps

namespace Stepwise

variable {A : List ι → ι → Prop}

theorem append_iff {before steps steps' : List ι}
    : Stepwise A before (steps ++ steps') ↔ Stepwise A before steps ∧ Stepwise A (before ++ steps) steps' := by
  induction steps generalizing before with
  | nil => simp [Stepwise]
  | cons step steps ih =>
    simp only [List.cons_append, Stepwise, ih, and_assoc]
    rw [List.append_assoc, List.singleton_append]

theorem of_forall {before steps : List ι} (h : ∀ before', before <+: before' → ∀ step ∈ steps, A before' step)
    : Stepwise A before steps := by
  induction steps generalizing before with
  | nil => trivial
  | cons step steps ih =>
    refine ⟨h before (List.prefix_refl _) step List.mem_cons_self, ih fun before' hbefore step' hstep => ?_⟩
    exact h before' ((List.prefix_append _ _).trans hbefore) step' (.tail _ hstep)

end Stepwise

end Journal
