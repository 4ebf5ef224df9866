import Mathlib.Data.List.Sort
import Lqxp.Core.UserList
import Lqxp.Data.Keyset

/-!
This module contains the order of the account browse: the three sort orders are strict orders of positions,
and the query for one page selects the rows behind a position.
-/

namespace Lqxp

/--
The collation of the engine is a total order of the texts, in which the empty text comes first.
-/
structure Backend.Lawful (b : Backend) : Prop where
  irrefl (s : String) : b.textLt s s = false
  trans (s t u : String) : b.textLt s t → b.textLt t u → b.textLt s u
  trichotomous (s t : String) : b.textLt s t ∨ s = t ∨ b.textLt t s
  empty (s : String) : s ≠ "" → b.textLt "" s
  lower_empty : b.sqlLower "" = ""

variable {b : Backend}

namespace SqlValue

theorem lt_irrefl (hb : b.Lawful) (v : SqlValue) : lt b v v = false := by
  cases v with
  | integer n => simp [lt]
  | text s => exact hb.irrefl s

theorem lt_trans (hb : b.Lawful) {u v w : SqlValue} (huv : lt b u v) (hvw : lt b v w) : lt b u w := by
  cases u with
  | integer m =>
    cases w with
    | text => rfl
    | integer k =>
      cases v with
      | integer n =>
        simp only [lt, decide_eq_true_eq] at *
        omega
      | text => contradiction
  | text s =>
    cases v with
    | integer => contradiction
    | text t =>
      cases w with
      | integer => contradiction
      | text u => exact hb.trans s t u huv hvw

theorem lt_trichotomous (hb : b.Lawful) (u v : SqlValue) : lt b u v ∨ u = v ∨ lt b v u := by
  cases u with
  | integer m =>
    cases v with
    | integer n =>
      simp only [lt, decide_eq_true_eq, integer.injEq]
      omega
    | text => exact .inl rfl
  | text s =>
    cases v with
    | integer => exact .inr (.inr rfl)
    | text t => simpa [lt] using hb.trichotomous s t

end SqlValue

/--
What the rows are sorted by: a column, and the id to break ties.
-/
abbrev SortKey := SqlValue × String

namespace SortKey

def lt (b : Backend) (k k' : SortKey) : Bool := k.1.lt b k'.1 || (k.1 = k'.1 && b.textLt k.2 k'.2)

theorem lt_iff (k k' : SortKey) : lt b k k' ↔ k.1.lt b k'.1 ∨ k.1 = k'.1 ∧ b.textLt k.2 k'.2 := by
  rw [lt, Bool.or_eq_true, Bool.and_eq_true, decide_eq_true_eq]

theorem lt_irrefl (hb : b.Lawful) (k : SortKey) : lt b k k = false := by
  simp [lt, SqlValue.lt_irrefl hb, hb.irrefl]

theorem lt_trans (hb : b.Lawful) {k k' k'' : SortKey} (h : lt b k k') (h' : lt b k' k'') : lt b k k'' := by
  rw [lt_iff] at *
  rcases h with h | ⟨heq, h⟩
  . rcases h' with h' | ⟨heq', -⟩
    . exact .inl (SqlValue.lt_trans hb h h')
    . exact .inl (heq' ▸ h)
  . rcases h' with h' | ⟨heq', h'⟩
    . exact .inl (heq ▸ h')
    . exact .inr ⟨heq.trans heq', hb.trans _ _ _ h h'⟩

theorem lt_trichotomous (hb : b.Lawful) (k k' : SortKey) : lt b k k' ∨ k = k' ∨ lt b k' k := by
  obtain ⟨u, s⟩ := k
  obtain ⟨v, t⟩ := k'
  rw [lt_iff, lt_iff, Prod.mk.injEq]
  rcases SqlValue.lt_trichotomous hb u v with h | rfl | h
  . exact .inl (.inl h)
  . rcases hb.trichotomous s t with h | h | h
    . exact .inl (.inr ⟨rfl, h⟩)
    . exact .inr (.inl ⟨rfl, h⟩)
    . exact .inr (.inr (.inr ⟨rfl, h⟩))
  . exact .inr (.inr (.inl h))

end SortKey

namespace UserListSort

def precedes (b : Backend) (sort : UserListSort) (k k' : SortKey) : Prop :=
  match sort with
  | .newest => SortKey.lt b k' k
  | .oldest | .username => SortKey.lt b k k'

instance (sort : UserListSort) : DecidableRel (sort.precedes b) := fun k k' => by
  unfold precedes
  split <;> infer_instance

theorem isStrictOrder_precedes (hb : b.Lawful) (sort : UserListSort)
    : IsStrictOrder SortKey (sort.precedes b) where
  irrefl k := by cases sort <;> simp [precedes, SortKey.lt_irrefl hb]
  trans k k' k'' h h' := by
    cases sort with
    | newest => exact SortKey.lt_trans hb h' h
    | oldest | username => exact SortKey.lt_trans hb h h'

theorem precedes_trichotomous (hb : b.Lawful) (sort : UserListSort) (k k' : SortKey)
    : sort.precedes b k k' ∨ k = k' ∨ sort.precedes b k' k := by
  cases sort with
  | newest =>
    rcases SortKey.lt_trichotomous hb k' k with h | h | h
    . exact .inl h
    . exact .inr (.inl h.symm)
    . exact .inr (.inr h)
  | oldest | username => exact SortKey.lt_trichotomous hb k k'

def key (b : Backend) (sort : UserListSort) (row : UserRow) : SortKey :=
  match sort with
  | .username => (.text (b.sqlLower row.username), row.id)
  | .newest | .oldest => (row.createdAt, row.id)

def positionKey (b : Backend) (sort : UserListSort) (position : Position) : SortKey :=
  match sort with
  | .username => (.text (b.sqlLower position.name), position.id)
  | .newest | .oldest => (.integer position.created, position.id)

@[simp]
theorem key_snd (sort : UserListSort) (row : UserRow) : (sort.key b row).2 = row.id := by
  cases sort <;> rfl

theorem before_iff (sort : UserListSort) (row row' : UserRow)
    : sort.before b row row' ↔ sort.precedes b (sort.key b row) (sort.key b row') := by
  unfold before precedes
  cases sort with
  | newest =>
    dsimp only [key]
    rw [SortKey.lt_iff, Bool.or_eq_true, Bool.and_eq_true, decide_eq_true_eq,
      eq_comm (a := row'.createdAt)]
  | oldest =>
    dsimp only [key]
    rw [SortKey.lt_iff, Bool.or_eq_true, Bool.and_eq_true, decide_eq_true_eq]
  | username =>
    dsimp only [key]
    rw [SortKey.lt_iff, Bool.or_eq_true, Bool.and_eq_true, decide_eq_true_eq, SqlValue.lt,
      SqlValue.text.injEq]

end UserListSort

theorem keyset_iff (sort : UserListSort) (after : Position) (row : UserRow)
    : keyset b sort after row ↔ sort.precedes b (sort.positionKey b after) (sort.key b row) := by
  unfold keyset UserListSort.precedes
  cases sort with
  | newest =>
    dsimp only [UserListSort.key, UserListSort.positionKey]
    rw [SortKey.lt_iff, Bool.or_eq_true, Bool.and_eq_true, decide_eq_true_eq]
  | oldest =>
    dsimp only [UserListSort.key, UserListSort.positionKey]
    rw [SortKey.lt_iff, Bool.or_eq_true, Bool.and_eq_true, decide_eq_true_eq,
      eq_comm (a := row.createdAt)]
  | username =>
    dsimp only [UserListSort.key, UserListSort.positionKey]
    rw [SortKey.lt_iff, Bool.or_eq_true, Bool.and_eq_true, decide_eq_true_eq, SqlValue.lt,
      SqlValue.text.injEq, eq_comm (a := b.sqlLower row.username)]

/--
No two rows have the same id.
-/
def DistinctIds (table : List UserRow) : Prop := (table.map (·.id)).Nodup

/--
The rows that pass a filter, in the order of the pages.
-/
def UserListFilter.listing (b : Backend) (adminIds : List String) (table : List UserRow)
    (filter : UserListFilter) : List UserRow :=
  (table.filter (filter.selects b adminIds table)).mergeSort fun row row' => !filter.sort.before b row' row

theorem sorted_mergeSort (hb : b.Lawful) {rows : List UserRow} (hids : DistinctIds rows)
    (sort : UserListSort)
    : Keyset.Sorted (sort.precedes b) (sort.key b)
        (rows.mergeSort fun row row' => !sort.before b row' row) := by
  have := UserListSort.isStrictOrder_precedes hb sort
  have hle : (rows.mergeSort fun row row' => !sort.before b row' row).Pairwise
      fun row row' => !sort.before b row' row := by
    refine List.pairwise_mergeSort (fun row row' row'' h h' => ?_) (fun row row' => ?_) rows
    . simp only [Bool.not_eq_true', ← Bool.not_eq_true, UserListSort.before_iff] at *
      intro h''
      rcases sort.precedes_trichotomous hb (sort.key b row') (sort.key b row) with hlt | heq | hlt
      . exact h hlt
      . exact h' (heq ▸ h'')
      . exact h' (trans_of _ h'' hlt)
    . rw [← Bool.not_and, Bool.not_eq_true', ← Bool.not_eq_true, Bool.and_eq_true,
        UserListSort.before_iff, UserListSort.before_iff]
      exact fun h => asymm_of _ h.1 h.2
  have hne : (rows.mergeSort fun row row' => !sort.before b row' row).Pairwise
      fun row row' => row.id ≠ row'.id := by
    refine List.pairwise_map.1 (List.Perm.nodup_iff ?_ |>.2 hids)
    exact (List.mergeSort_perm rows _).map _
  refine (hle.and hne).imp fun {row row'} h => ?_
  obtain ⟨hnot, hid⟩ := h
  rw [Bool.not_eq_true', ← Bool.not_eq_true, UserListSort.before_iff] at hnot
  rcases sort.precedes_trichotomous hb (sort.key b row) (sort.key b row') with h | h | h
  . exact h
  . exact absurd (by rw [← sort.key_snd (b := b) row, h, sort.key_snd]) hid
  . exact absurd h hnot

theorem sorted_listing (hb : b.Lawful) {adminIds : List String} {table : List UserRow}
    (hids : DistinctIds table) (filter : UserListFilter)
    : Keyset.Sorted (filter.sort.precedes b) (filter.sort.key b) (filter.listing b adminIds table) :=
  sorted_mergeSort hb (hids.sublist (List.filter_sublist.map _)) filter.sort

theorem mergeSort_keyset (hb : b.Lawful) {adminIds : List String} {table : List UserRow}
    (hids : DistinctIds table) (filter : UserListFilter) (after : Position)
    : ((table.filter fun row => keyset b filter.sort after row && filter.selects b adminIds table row).mergeSort
          fun row row' => !filter.sort.before b row' row)
        = Keyset.after (filter.sort.precedes b) (filter.sort.key b) (filter.sort.positionKey b after)
          (filter.listing b adminIds table) := by
  have := UserListSort.isStrictOrder_precedes hb filter.sort
  refine List.Perm.eq_of_pairwise (fun row row' _ _ h h' => absurd h' (asymm_of _ h))
    (sorted_mergeSort hb (hids.sublist (List.filter_sublist.map _)) filter.sort)
    ((sorted_listing hb hids filter).after _) ?_
  refine (List.mergeSort_perm _ _).trans ?_
  have hkeyset : (fun row => decide (filter.sort.precedes b (filter.sort.positionKey b after)
      (filter.sort.key b row))) = keyset b filter.sort after := by
    funext row
    rw [Bool.eq_iff_iff, decide_eq_true_iff, keyset_iff]
  rw [Keyset.after, hkeyset, ← List.filter_filter]
  exact ((List.mergeSort_perm _ _).filter _).symm

end Lqxp
