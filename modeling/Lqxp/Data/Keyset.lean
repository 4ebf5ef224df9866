import Mathlib.Data.List.Count
import Mathlib.Data.List.Perm.Basic
import Mathlib.Data.Set.Card
import Mathlib.Order.Defs.Unbundled

/-!
This module contains what queries with an order and a limit answer with: the first items in an order that may leave
ties, and keyset pagination, where rows in a strict order are shown page by page, the next page starts behind the last
row of the one before, and every page looks one row ahead.
-/

section Shortlists

variable {α : Type}

/--
The first `n` items, where items that the order does not tell apart come in any order.
-/
def Leading (r : α → α → Prop) (n : Nat) (xs ys : List α) : Prop :=
  ∃ sorted : List α, sorted.Perm xs ∧ sorted.Pairwise r ∧ ys = sorted.take n

namespace Leading

variable {r : α → α → Prop} {n : Nat} {xs xs' ys : List α} {a : α}

theorem of_mergeSort {le : α → α → Bool} (htrans : ∀ a b c, le a b → le b c → le a c)
    (htotal : ∀ a b, le a b || le b a) (n : Nat) (xs : List α)
    : Leading (fun a b => le a b = true) n xs ((xs.mergeSort le).take n) :=
  ⟨_, List.mergeSort_perm xs le, List.pairwise_mergeSort htrans htotal xs, rfl⟩

theorem of_perm (h : Leading r n xs ys) (hperm : xs.Perm xs') : Leading r n xs' ys := by
  obtain ⟨sorted, hsorted, hpairwise, rfl⟩ := h
  exact ⟨sorted, hsorted.trans hperm, hpairwise, rfl⟩

theorem imp {r' : α → α → Prop} (h : Leading r n xs ys) (himp : ∀ a ∈ xs, ∀ b ∈ xs, r a b → r' a b)
    : Leading r' n xs ys := by
  obtain ⟨sorted, hsorted, hpairwise, rfl⟩ := h
  refine ⟨sorted, hsorted, ?_, rfl⟩
  exact hpairwise.imp_of_mem fun ha hb => himp _ (hsorted.mem_iff.1 ha) _ (hsorted.mem_iff.1 hb)

theorem subset (h : Leading r n xs ys) : ys ⊆ xs := by
  obtain ⟨sorted, hsorted, -, rfl⟩ := h
  exact fun _ hmem => hsorted.mem_iff.1 (List.mem_of_mem_take hmem)

theorem of_map {β : Type} {f : α → β} {g : β → α} {r : β → β → Prop} {ys : List β} (hgf : ∀ a, g (f a) = a)
    (h : Leading r n (xs.map f) ys) : Leading (fun a b => r (f a) (f b)) n xs (ys.map g) := by
  obtain ⟨sorted, hsorted, hpairwise, rfl⟩ := h
  have hback : (xs.map f).map g = xs := by
    rw [List.map_map]
    exact (List.map_congr_left fun a _ => hgf a).trans (List.map_id xs)
  refine ⟨sorted.map g, hback ▸ hsorted.map g, ?_, List.map_take⟩
  rw [List.pairwise_map]
  refine hpairwise.imp_of_mem fun {b b'} hb hb' h => ?_
  obtain ⟨a, -, rfl⟩ := List.mem_map.1 (hsorted.mem_iff.1 hb)
  obtain ⟨a', -, rfl⟩ := List.mem_map.1 (hsorted.mem_iff.1 hb')
  rwa [hgf, hgf]

theorem perm_of_length_le (h : Leading r n xs ys) (hlength : xs.length ≤ n) : ys.Perm xs := by
  obtain ⟨sorted, hsorted, -, rfl⟩ := h
  rwa [List.take_of_length_le (hsorted.length_eq ▸ hlength)]

theorem not_mem_of_countP {before : α → Bool} (h : Leading r n xs ys) (hcount : n ≤ xs.countP before)
    (hr : ∀ b ∈ xs, before b = true → ¬ r a b) (ha : before a = false) : a ∉ ys := by
  obtain ⟨sorted, hsorted, hpairwise, rfl⟩ := h
  intro hmem
  have hbehind : (sorted.drop n).countP before = 0 := by
    rw [List.countP_eq_zero]
    intro b hb hbefore
    rw [← List.take_append_drop n sorted, List.pairwise_append] at hpairwise
    exact hr b (hsorted.mem_iff.1 (List.mem_of_mem_drop hb)) hbefore (hpairwise.2.2 a hmem b hb)
  have htaken : n ≤ (sorted.take n).countP before := by
    rw [← hsorted.countP_eq, ← List.take_append_drop n sorted, List.countP_append, hbehind, Nat.add_zero] at hcount
    exact hcount
  -- so all of the first `n` come before `a`, which is one of them
  have hall := List.countP_eq_length.1 (Nat.le_antisymm List.countP_le_length
    (Nat.le_trans (List.length_take_le n sorted) htaken))
  rw [hall a hmem] at ha
  contradiction

end Leading

end Shortlists

namespace Keyset

variable {α κ : Type}

/--
What is shown of the rows behind a position: the good ones among the first `n + 1`, but at most `n`. When
there are more than `n` rows, the next page starts behind the last row shown.
-/
def page (good : α → Bool) (n : Nat) (rows : List α) : List α × Option α :=
  let window := rows.take (n + 1)
  let shown := (window.filter good).take n
  (shown, if n < window.length then shown.getLast? else none)

theorem exists_split_of_take_filter {good : α → Bool} {n : Nat} {rows : List α} {last : α}
    (h : ((rows.filter good).take n).getLast? = some last)
    : ∃ pre post, rows = pre ++ last :: post ∧ good last
        ∧ (rows.filter good).take n = pre.filter good ++ [last] := by
  obtain ⟨init, hinit⟩ := List.getLast?_eq_some_iff.1 h
  have hsplit : rows.filter good = init ++ last :: (rows.filter good).drop n := by
    have hwhole := List.take_append_drop n (rows.filter good)
    rw [hinit, List.append_assoc] at hwhole
    exact hwhole.symm
  obtain ⟨rows₁, rows₂, rfl, h₁, h₂⟩ := List.filter_eq_append_iff.1 hsplit
  obtain ⟨skipped, post, rfl, hskipped, hlast, -⟩ := List.filter_eq_cons_iff.1 h₂
  refine ⟨rows₁ ++ skipped, post, by simp, hlast, ?_⟩
  rw [hinit, List.filter_append, h₁, List.filter_eq_nil_iff.2 fun a ha => by simpa using hskipped a ha]
  simp

variable {good : α → Bool} {n : Nat}

theorem mem_page {rows : List α} {a : α} (h : a ∈ (page good n rows).1) : a ∈ rows ∧ good a := by
  obtain ⟨hmem, hgood⟩ := List.mem_filter.1 (List.mem_of_mem_take h)
  exact ⟨List.mem_of_mem_take hmem, hgood⟩

theorem last_mem_page {rows : List α} {last : α} (h : (page good n rows).2 = some last)
    : last ∈ (page good n rows).1 := by
  rw [page] at h
  dsimp only at h
  split at h
  . exact List.mem_of_getLast? h
  . contradiction

theorem page_cases (good : α → Bool) (hn : 0 < n) (rows : List α)
    : (rows.length ≤ n ∧ page good n rows = (rows.filter good, none))
        ∨ (n < rows.length ∧ (∀ a ∈ rows.take (n + 1), good a = false) ∧ page good n rows = ([], none))
        ∨ ∃ pre last post, rows = pre ++ last :: post ∧ n < rows.length ∧ pre.length ≤ n ∧ good last
          ∧ page good n rows = (pre.filter good ++ [last], some last) := by
  by_cases hlen : rows.length ≤ n
  . left
    have hfilter : (rows.filter good).length ≤ n := (List.length_filter_le _ _).trans hlen
    refine ⟨hlen, ?_⟩
    rw [page, List.take_of_length_le (Nat.le_succ_of_le hlen), if_neg (by omega),
      List.take_of_length_le hfilter]
  . have hwindow : n < (rows.take (n + 1)).length := by
      rw [List.length_take]
      omega
    cases hlast : (((rows.take (n + 1)).filter good).take n).getLast? with
    | none =>
      right
      left
      rw [List.getLast?_eq_none_iff] at hlast
      refine ⟨by omega, fun a ha => ?_, ?_⟩
      . rcases List.take_eq_nil_iff.1 hlast with h0 | hnil
        . omega
        . simpa using List.filter_eq_nil_iff.1 hnil a ha
      . rw [page, hlast, if_pos hwindow]
        rfl
    | some last =>
      right
      right
      obtain ⟨pre, post, hsplit, hgood, htake⟩ := exists_split_of_take_filter hlast
      refine ⟨pre, last, post ++ rows.drop (n + 1), ?_, by omega, ?_, hgood, ?_⟩
      . rw [← List.cons_append, ← List.append_assoc, ← hsplit, List.take_append_drop]
      . have hbound := congrArg List.length hsplit
        simp only [List.length_append, List.length_cons, List.length_take] at hbound
        omega
      . rw [page, if_pos hwindow, hlast, htake]

section Order

variable (lt : κ → κ → Prop) (key : α → κ)

def Sorted (rows : List α) : Prop := rows.Pairwise fun a a' => lt (key a) (key a')

def after [DecidableRel lt] (k : κ) (rows : List α) : List α := rows.filter fun a => lt k (key a)

variable {lt key}

theorem Sorted.before_last {pre post : List α} {last : α} (h : Sorted lt key (pre ++ last :: post))
    : ∀ a ∈ pre, lt (key a) (key last) :=
  fun a ha => (List.pairwise_append.1 h).2.2 a ha last List.mem_cons_self

theorem Sorted.behind_last {pre post : List α} {last : α} (h : Sorted lt key (pre ++ last :: post))
    : ∀ a ∈ post, lt (key last) (key a) :=
  (List.pairwise_cons.1 (List.pairwise_append.1 h).2.1).1

variable [DecidableRel lt]

theorem mem_after {k : κ} {rows : List α} {a : α} : a ∈ after lt key k rows ↔ a ∈ rows ∧ lt k (key a) := by
  simp [after]

theorem Sorted.after {rows : List α} (h : Sorted lt key rows) (k : κ)
    : Sorted lt key (after lt key k rows) :=
  List.Pairwise.filter _ h

variable [IsStrictOrder κ lt]

theorem after_last {k : κ} {rows pre post : List α} {last : α} (h : Sorted lt key rows)
    (hsplit : after lt key k rows = pre ++ last :: post) : after lt key (key last) rows = post := by
  have hsorted := h.after k
  rw [hsplit] at hsorted
  have hlast : lt k (key last) := (mem_after.1 (hsplit ▸ by simp : last ∈ after lt key k rows)).2
  have hshrink : after lt key (key last) rows = after lt key (key last) (after lt key k rows) := by
    rw [after, after, after, List.filter_filter]
    refine List.filter_congr fun a _ => ?_
    by_cases ha : lt (key last) (key a)
    . simp [ha, trans_of lt hlast ha]
    . simp [ha]
  rw [hshrink, hsplit, after, List.filter_append, List.filter_cons_of_neg (by simpa using irrefl_of lt _),
    List.filter_eq_nil_iff.2 fun a ha => ?_, List.nil_append, List.filter_eq_self.2 fun a ha => ?_]
  . exact decide_eq_true (hsorted.behind_last a ha)
  . simpa using asymm_of lt (hsorted.before_last a ha)

end Order

/--
Wherever `n + 1` rows in a row are bad, so are all rows behind them.
-/
def NoGap (good : α → Bool) (n : Nat) (rows : List α) : Prop :=
  ∀ pre run post, rows = pre ++ run ++ post → run.length = n + 1 → (∀ a ∈ run, good a = false) →
    ∀ a ∈ post, good a = false

theorem noGap_cons_iff {pre post : List α} {last : α} (hpre : pre.length ≤ n) (hlast : good last)
    : NoGap good n (pre ++ last :: post) ↔ NoGap good n post := by
  constructor
  . intro h pre' run post' hpost
    refine h (pre ++ last :: pre') run post' ?_
    simp [hpost]
  . intro h pre' run post' hrows hrun hbad
    have hnot : last ∉ run := fun hmem => by simp [hbad last hmem] at hlast
    rw [List.append_assoc] at hrows
    rcases List.append_eq_append_iff.1 hrows with ⟨mid, rfl, hmid⟩ | ⟨mid, rfl, hmid⟩
    . cases mid with
      | nil =>
        cases run with
        | nil => simp at hrun
        | cons first run =>
          obtain ⟨rfl, -⟩ := by simpa using hmid
          exact absurd List.mem_cons_self hnot
      | cons first mid =>
        obtain ⟨rfl, hpost⟩ := by simpa using hmid
        exact h mid run post' (by simp [hpost]) hrun hbad
    . rw [List.length_append] at hpre
      rcases List.append_eq_append_iff.1 hmid with ⟨rest, hrest, -⟩ | ⟨rest, hrest, hlast'⟩
      . have hlen := congrArg List.length hrest
        rw [List.length_append] at hlen
        omega
      . cases rest with
        | nil =>
          have hlen := congrArg List.length hrest
          simp at hlen
          omega
        | cons first rest =>
          obtain ⟨rfl, -⟩ := by simpa using hlast'
          exact absurd (by simp [hrest]) hnot

theorem NoGap.of_length_le {rows : List α} (h : rows.length ≤ n) : NoGap good n rows := by
  intro pre run post hrows hrun
  have hbound := congrArg List.length hrows
  simp only [List.length_append] at hbound
  omega

theorem noGap_iff_of_bad {rows : List α} (hlong : n < rows.length)
    (hbad : ∀ a ∈ rows.take (n + 1), good a = false) : NoGap good n rows ↔ rows.filter good = [] := by
  constructor
  . intro h
    have hrun : (rows.take (n + 1)).length = n + 1 := by
      rw [List.length_take]
      omega
    have hrest := h [] _ _ (List.take_append_drop (n + 1) rows).symm hrun hbad
    rw [← List.take_append_drop (n + 1) rows, List.filter_append]
    simpa using ⟨hbad, hrest⟩
  . intro h pre run post hrows _ _ a ha
    have hnot := List.filter_eq_nil_iff.1 h a (hrows ▸ List.mem_append_right _ ha)
    simpa using hnot

section Walk

variable (lt : κ → κ → Prop) [DecidableRel lt] (key : α → κ) (good : α → Bool) (n : Nat)

/--
Show page after page, each of the rows as they are then, until one says that there is no next page; `none`
when the fuel does not suffice.
-/
def walk (rows : Nat → List α) : Nat → Nat → κ → Option (List α)
  | 0, _, _ => none
  | fuel + 1, j, k =>
    match page good n (after lt key k (rows j)) with
    | (shown, none) => some shown
    | (shown, some last) => (walk rows fuel (j + 1) (key last)).map (shown ++ ·)

variable {lt key good n} {rows : Nat → List α}

theorem walk_unique {fuel fuel' j : Nat} {k : κ} {out out' : List α}
    (h : walk lt key good n rows fuel j k = some out) (h' : walk lt key good n rows fuel' j k = some out')
    : out = out' := by
  induction fuel generalizing fuel' j k out out' with
  | zero => contradiction
  | succ fuel ih =>
    cases fuel' with
    | zero => contradiction
    | succ fuel' =>
      rw [walk] at h h'
      cases hpage : page good n (after lt key k (rows j)) with
      | mk shown next =>
        rw [hpage] at h h'
        cases next with
        | none => exact Option.some.inj (h.symm.trans h')
        | some last =>
          obtain ⟨rest, hrest, rfl⟩ := Option.map_eq_some_iff.1 h
          obtain ⟨rest', hrest', rfl⟩ := Option.map_eq_some_iff.1 h'
          rw [ih hrest hrest']

theorem walk_of_none {j : Nat} {k : κ} {shown : List α}
    (hpage : page good n (after lt key k (rows j)) = (shown, none))
    : walk lt key good n rows 1 j k = some shown := by
  rw [walk, hpage]

theorem walk_of_some {fuel j : Nat} {k : κ} {shown rest : List α} {last : α}
    (hpage : page good n (after lt key k (rows j)) = (shown, some last))
    (hrest : walk lt key good n rows fuel (j + 1) (key last) = some rest)
    : walk lt key good n rows (fuel + 1) j k = some (shown ++ rest) := by
  rw [walk, hpage]
  simp [hrest]

variable [IsStrictOrder κ lt]

theorem walk_constant (hn : 0 < n) {table : List α} (hsorted : Sorted lt key table) (j : Nat) (k : κ)
    : ∃ fuel out, walk lt key good n (fun _ => table) fuel j k = some out
        ∧ out <+: (after lt key k table).filter good
        ∧ (out = (after lt key k table).filter good ↔ NoGap good n (after lt key k table)) := by
  generalize hlen : (after lt key k table).length = m
  induction m using Nat.strongRecOn generalizing j k with
  | ind m ih =>
    rcases page_cases good hn (after lt key k table) with ⟨hshort, hpage⟩ | ⟨hlong, hbad, hpage⟩
      | ⟨pre, last, post, hsplit, hlong, hpre, hlast, hpage⟩
    . exact ⟨1, _, walk_of_none hpage, List.prefix_rfl, fun _ => .of_length_le hshort, fun _ => rfl⟩
    . refine ⟨1, [], walk_of_none hpage, List.nil_prefix, ?_⟩
      rw [noGap_iff_of_bad hlong hbad, eq_comm]
    . have hpost := after_last hsorted hsplit
      have hshorter : post.length < m := by
        rw [← hlen, hsplit, List.length_append, List.length_cons]
        omega
      obtain ⟨fuel, out, hwalk, hbegins, hgap⟩ := ih post.length hshorter (j + 1) (key last)
        (by rw [hpost])
      rw [hpost] at hbegins hgap
      have hfilter : (after lt key k table).filter good = pre.filter good ++ [last] ++ post.filter good := by
        rw [hsplit, List.filter_append, List.filter_cons_of_pos hlast, List.append_assoc]
        rfl
      refine ⟨fuel + 1, pre.filter good ++ [last] ++ out, walk_of_some hpage hwalk, ?_, ?_⟩
      . rw [hfilter]
        exact (List.prefix_append_right_inj _).2 hbegins
      . rw [hfilter, List.append_cancel_left_eq, hgap, hsplit, noGap_cons_iff hpre hlast]

/--
When all rows are good, whatever rows appear meanwhile, what is shown is in order, and every row that is
there all the time is shown.
-/
theorem walk_complete (hn : 0 < n) (hsorted : ∀ j, Sorted lt key (rows j))
    (hgood : ∀ j, ∀ a ∈ rows j, good a) {fuel j : Nat} {k : κ} {out : List α}
    (h : walk lt key good n rows fuel j k = some out)
    : Sorted lt key out ∧ (∀ a ∈ out, lt k (key a) ∧ ∃ i, a ∈ rows i)
        ∧ ∀ a, (∀ i, a ∈ rows i) → lt k (key a) → a ∈ out := by
  induction fuel generalizing j k out with
  | zero => contradiction
  | succ fuel ih =>
    have hall (a : α) (ha : a ∈ after lt key k (rows j)) : good a := hgood j a (mem_after.1 ha).1
    rcases page_cases good hn (after lt key k (rows j)) with ⟨-, hpage⟩ | ⟨hlong, hbad, -⟩
      | ⟨pre, last, post, hsplit, -, -, -, hpage⟩
    . rw [walk, hpage, List.filter_eq_self.2 hall] at h
      obtain rfl := Option.some.inj h
      refine ⟨(hsorted j).after k, fun a ha => ?_, fun a hrows hk => mem_after.2 ⟨hrows j, hk⟩⟩
      exact ⟨(mem_after.1 ha).2, j, (mem_after.1 ha).1⟩
    . cases hrows : after lt key k (rows j) with
      | nil => simp [hrows] at hlong
      | cons first rest =>
        have hnot := hbad first (by simp [hrows])
        rw [hall first (by simp [hrows])] at hnot
        contradiction
    . have hpre : pre.filter good = pre := List.filter_eq_self.2 fun a ha => hall a (by simp [hsplit, ha])
      rw [walk, hpage, hpre] at h
      obtain ⟨rest, hrest, rfl⟩ := Option.map_eq_some_iff.1 h
      obtain ⟨hsorted', hbehind, hcomplete⟩ := ih hrest
      have hpage := (hsorted j).after k
      rw [hsplit] at hpage
      have hshown {a : α} (ha : a ∈ pre ++ [last]) : lt k (key a) ∧ a ∈ rows j :=
        (mem_after.1 (by rw [hsplit]; simp at ha; simp; tauto : a ∈ after lt key k (rows j))).symm
      have hlast := (hshown (by simp : last ∈ pre ++ [last])).1
      refine ⟨?_, ?_, ?_⟩
      . refine List.pairwise_append.2 ⟨(List.pairwise_append.1 (List.append_cons .. ▸ hpage)).1, hsorted', ?_⟩
        intro a ha a' ha'
        have hbound := (hbehind a' ha').1
        rcases List.mem_append.1 ha with ha | ha
        . exact trans_of lt (hpage.before_last a ha) hbound
        . exact List.mem_singleton.1 ha ▸ hbound
      . intro a ha
        rcases List.mem_append.1 ha with ha | ha
        . exact ⟨(hshown ha).1, j, (hshown ha).2⟩
        . exact ⟨trans_of lt hlast (hbehind a ha).1, (hbehind a ha).2⟩
      . intro a hrows hk
        have ha : a ∈ pre ++ last :: post := hsplit ▸ mem_after.2 ⟨hrows j, hk⟩
        rcases List.mem_append.1 ((List.append_cons pre last post) ▸ ha) with ha | ha
        . exact List.mem_append_left _ ha
        . exact List.mem_append_right _ (hcomplete a hrows (hpage.behind_last a ha))

theorem exists_walk_eq_some (hn : 0 < n) {K : Set κ} (hK : K.Finite)
    (hrows : ∀ j, ∀ a ∈ rows j, key a ∈ K) (j : Nat) (k : κ)
    : ∃ fuel out, walk lt key good n rows fuel j k = some out := by
  generalize hleft : (K ∩ {k' | lt k k'}).ncard = m
  induction m using Nat.strongRecOn generalizing j k with
  | ind m ih =>
    rcases page_cases good hn (after lt key k (rows j)) with ⟨-, hpage⟩ | ⟨-, -, hpage⟩
      | ⟨pre, last, post, hsplit, -, -, -, hpage⟩
    . exact ⟨1, _, walk_of_none hpage⟩
    . exact ⟨1, _, walk_of_none hpage⟩
    . obtain ⟨hmem, hlast⟩ := mem_after.1 (by simp [hsplit] : last ∈ after lt key k (rows j))
      have hfewer : (K ∩ {k' | lt (key last) k'}).ncard < m := by
        rw [← hleft]
        refine Set.ncard_lt_ncard ⟨?_, fun hsub => ?_⟩ (hK.inter_of_left _)
        . exact fun k' hk' => ⟨hk'.1, trans_of lt hlast hk'.2⟩
        . exact irrefl_of lt (key last) (hsub ⟨hrows j last hmem, hlast⟩).2
      obtain ⟨fuel, out, hwalk⟩ := ih _ hfewer (j + 1) (key last) rfl
      exact ⟨fuel + 1, _, walk_of_some hpage hwalk⟩

end Walk

end Keyset
