import Mathlib.Data.List.Basic

/-!
This module contains traversals of lists whose effects stay when an item fails: which items are reached, and what
is left behind.
-/

namespace Traversal

variable {ε σ α : Type} (passes : α → σ → Prop) (effect : α → σ → σ)

/--
Each item passes in the state that the ones before it leave behind.
-/
def AllPass : List α → σ → Prop
  | [], _ => True
  | item :: items, s => passes item s ∧ AllPass items (effect item s)

/--
An item that passes has its effect, and one that fails leaves the same behind.
-/
structure Steps (same : σ → σ → Prop) (step : α → EStateM ε σ Unit) : Prop where
  pass (item : α) (s : σ) (h : passes item s) : step item s = .ok () (effect item s)
  fail (item : α) (s : σ) (h : ¬ passes item s) : ∃ err s', step item s = .error err s' ∧ same s s'

/--
The items that are reached: the longest beginning of the list in which each item passes.
-/
structure Reached (items : List α) (s : σ) (reached : List α) : Prop where
  isPrefix : reached <+: items
  allPass : AllPass passes effect reached s
  longest (reached' : List α) : reached' <+: items → AllPass passes effect reached' s → reached' <+: reached

variable {passes effect} {same : σ → σ → Prop} {step : α → EStateM ε σ Unit} {items items' : List α} {s : σ}

theorem AllPass.of_beginning (h : AllPass passes effect items s) (hbegins : items' <+: items)
    : AllPass passes effect items' s := by
  induction items generalizing items' s with
  | nil =>
    obtain rfl := List.prefix_nil.1 hbegins
    trivial
  | cons item items ih =>
    cases items' with
    | nil => trivial
    | cons item' items' =>
      obtain ⟨rfl, hrest⟩ := List.cons_prefix_cons.1 hbegins
      exact ⟨h.1, ih h.2 hrest⟩

theorem forM_cons_of_pass {item : α} (hsteps : Steps passes effect same step) (h : passes item s)
    : (item :: items).forM step s = items.forM step (effect item s) := by
  show (step item >>= fun _ => items.forM step) s = _
  simp only [bind, EStateM.bind, hsteps.pass item s h]

theorem forM_of_allPass (hsteps : Steps passes effect same step) (h : AllPass passes effect items s)
    : items.forM step s = .ok () (items.foldl (fun s item => effect item s) s) := by
  induction items generalizing s with
  | nil => rfl
  | cons item items ih => rw [forM_cons_of_pass hsteps h.1, ih h.2, List.foldl_cons]

theorem forM_of_not_allPass (hsteps : Steps passes effect same step) (h : ¬ AllPass passes effect items s)
    : ∃ reached err s', Reached passes effect items s reached ∧ items.forM step s = .error err s'
        ∧ same (reached.foldl (fun s item => effect item s) s) s' := by
  induction items generalizing s with
  | nil => exact absurd trivial h
  | cons item items ih =>
    by_cases hitem : passes item s
    . have hrest : ¬ AllPass passes effect items (effect item s) := fun hrest => h ⟨hitem, hrest⟩
      obtain ⟨reached, err, s', hreached, hrun, hsame⟩ := ih hrest
      refine ⟨item :: reached, err, s', ⟨?_, ⟨hitem, hreached.allPass⟩, ?_⟩, ?_, hsame⟩
      . exact List.cons_prefix_cons.2 ⟨rfl, hreached.isPrefix⟩
      . intro reached' hbegins hpass
        cases reached' with
        | nil => exact List.nil_prefix
        | cons item' reached' =>
          obtain ⟨rfl, hrest'⟩ := List.cons_prefix_cons.1 hbegins
          exact List.cons_prefix_cons.2 ⟨rfl, hreached.longest reached' hrest' hpass.2⟩
      . rw [forM_cons_of_pass hsteps hitem, hrun]
    . obtain ⟨err, s', hrun, hsame⟩ := hsteps.fail item s hitem
      refine ⟨[], err, s', ⟨List.nil_prefix, trivial, ?_⟩, ?_, hsame⟩
      . intro reached' hbegins hpass
        cases reached' with
        | nil => exact List.nil_prefix
        | cons item' reached' =>
          obtain ⟨rfl, -⟩ := List.cons_prefix_cons.1 hbegins
          exact absurd hpass.1 hitem
      . show (step item >>= fun _ => items.forM step) s = _
        simp only [bind, EStateM.bind, hrun]

end Traversal
