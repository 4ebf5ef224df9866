import Mathlib.Data.BitVec
import Mathlib.Data.Bool.AllAny
import Lqxp.Core.LikePatterns
import Lqxp.Profiles.Effects

/-!
This module contains which accounts a purge deletes, and when these are the ones in its window.
-/

namespace Lqxp

namespace PurgeFilter

variable (filter : PurgeFilter) (x : Externals)

/--
The window of a purge, with the bounds as they were given.
-/
def window (user : StoredUser) : Bool :=
  filter.createdAfterMs.all (·.toNat ≤ user.createdAt) && filter.createdBeforeMs.all (user.createdAt ≤ ·.toNat)
    && filter.minUsernameLen.all (· ≤ user.username.toList.length)
    && filter.maxUsernameLen.all (user.username.toList.length ≤ ·)
    && filter.usernameContains.all fun piece => Text.contains user.username (x.toLowercase (Text.trim piece))

/--
The bound is absent, or a signed number holds it.
-/
def fits (bound : Option (BitVec 64)) : Bool := bound.all (·.toNat < 2 ^ 63)

/--
The filter without the bounds that no signed number holds.
-/
def fitting : PurgeFilter :=
  { filter with
    createdAfterMs := filter.createdAfterMs.filter (·.toNat < 2 ^ 63)
    createdBeforeMs := filter.createdBeforeMs.filter (·.toNat < 2 ^ 63) }

end PurgeFilter

/--
The text that names have to contain has no NUL in it.
-/
def PurgeFilter.NulFree (x : Externals) (filter : PurgeFilter) : Prop :=
  ∀ piece, filter.usernameContains = some piece → Lqxp.NulFree (x.toLowercase (Text.trim piece))

/--
The table of users: its rows stand under their ids, its times are numbers of the database, and its names are in
lower case and, as registration demands, without the character NUL.
-/
structure AccountDatabase.Lowered (x : Externals) (db : AccountDatabase) : Prop where
  keyed : db.Keyed
  created : ∀ user ∈ db.users.values, user.createdAt < 2 ^ 63
  lower : ∀ user ∈ db.users.values, x.sqlLower user.username = user.username ∧ Comparable user.username

section Window

variable {x : Externals} {filter : PurgeFilter} {user : StoredUser}

theorem sqlLike_like (hlike : ComparesAsSql x.sqlLike) (hlower : Lowers x.toLowercase) (hnul : filter.NulFree x)
    (huser : Comparable user.username)
    : x.sqlLike (filter.like x) user.username
        = filter.usernameContains.all fun piece =>
            Text.contains user.username (x.toLowercase (Text.trim piece)) := by
  rw [PurgeFilter.like]
  cases hpiece : filter.usernameContains with
  | none => exact sqlLike_everything hlike huser
  | some piece =>
    by_cases hblank : Text.trim piece = ""
    . rw [Option.map_some, Option.filter_some_neg (by simp [hblank]), Option.all_some, hblank, hlower.empty,
        sqlLike_everything hlike huser]
      refine (Text.contains_iff_isInfix.2 ?_).symm
      exact List.nil_infix
    . rw [Option.map_some, Option.filter_some_pos (by simp [hblank]), Option.all_some]
      exact sqlLike_containing hlike ((hlower.noCapitals _).comparable (hnul piece hpiece)) huser

theorem after_le_eq (filter : PurgeFilter) (created : Nat)
    : decide (filter.after ≤ created) = filter.fitting.createdAfterMs.all (·.toNat ≤ created) := by
  rw [PurgeFilter.after, PurgeFilter.fitting]
  cases filter.createdAfterMs with
  | none => exact decide_eq_true (by simp only [Option.map_none, Option.getD_none]; omega)
  | some bound =>
    have hint := bound.toInt_eq_toNat_cond
    have hlt := bound.isLt
    rw [Option.filter_some, Option.map_some, Option.getD_some]
    split
    next hfits =>
      rw [Option.all_some, decide_eq_decide, hint]
      have hfits : bound.toNat < 2 ^ 63 := of_decide_eq_true hfits
      rw [if_pos (by omega)]
      omega
    next hlarge =>
      have hlarge : ¬ bound.toNat < 2 ^ 63 := fun h => hlarge (decide_eq_true h)
      rw [if_neg (by omega)] at hint
      exact decide_eq_true (by omega)

theorem le_before_eq (filter : PurgeFilter) {created : Nat} (hcreated : created < 2 ^ 63)
    : decide ((created : Int) ≤ filter.before)
        = (PurgeFilter.fits filter.createdBeforeMs && filter.fitting.createdBeforeMs.all (created ≤ ·.toNat)) := by
  rw [PurgeFilter.before, PurgeFilter.fitting, PurgeFilter.fits]
  cases filter.createdBeforeMs with
  | none => exact decide_eq_true (by simp only [Option.map_none, Option.getD_none]; omega)
  | some bound =>
    have hint := bound.toInt_eq_toNat_cond
    have hlt := bound.isLt
    rw [Option.filter_some, Option.map_some, Option.getD_some, Option.all_some]
    split
    next hfits =>
      rw [hfits, Bool.true_and, Option.all_some, decide_eq_decide, hint]
      have hfits : bound.toNat < 2 ^ 63 := of_decide_eq_true hfits
      rw [if_pos (by omega)]
      omega
    next hlarge =>
      rw [Bool.eq_false_iff.2 hlarge, Bool.false_and]
      have hlarge : ¬ bound.toNat < 2 ^ 63 := fun h => hlarge (decide_eq_true h)
      rw [if_neg (by omega)] at hint
      exact decide_eq_false (by omega)

theorem all_after_eq (filter : PurgeFilter) {created : Nat} (hcreated : created < 2 ^ 63)
    : filter.createdAfterMs.all (·.toNat ≤ created)
        = (PurgeFilter.fits filter.createdAfterMs && filter.fitting.createdAfterMs.all (·.toNat ≤ created)) := by
  rw [PurgeFilter.fitting, PurgeFilter.fits]
  cases filter.createdAfterMs with
  | none => rfl
  | some bound =>
    rw [Option.filter_some, Option.all_some, Option.all_some]
    split
    next hfits => rw [hfits, Bool.true_and, Option.all_some]
    next hlarge =>
      rw [Bool.eq_false_iff.2 hlarge, Bool.false_and]
      have hlarge : ¬ bound.toNat < 2 ^ 63 := fun h => hlarge (decide_eq_true h)
      exact decide_eq_false (by omega)

theorem all_before_eq (filter : PurgeFilter) {created : Nat} (hcreated : created < 2 ^ 63)
    : filter.createdBeforeMs.all (created ≤ ·.toNat) = filter.fitting.createdBeforeMs.all (created ≤ ·.toNat) := by
  rw [PurgeFilter.fitting]
  cases filter.createdBeforeMs with
  | none => rfl
  | some bound =>
    rw [Option.filter_some, Option.all_some]
    split
    next => rw [Option.all_some]
    next hlarge =>
      have hlarge : ¬ bound.toNat < 2 ^ 63 := fun h => hlarge (decide_eq_true h)
      exact decide_eq_true (by omega)

variable {adminIds : List String}

/--
What the code deletes, and what it should delete: the accounts in the window of the bounds that fit, provided
that the other bound fits, or the same one.
-/
theorem isPurged_eq (hlike : ComparesAsSql x.sqlLike) (hlower : Lowers x.toLowercase) (hnul : filter.NulFree x)
    (hcreated : user.createdAt < 2 ^ 63) (huser : x.sqlLower user.username = user.username ∧ Comparable user.username)
    : (filter.isCandidate x user && AccountDatabase.isPurged filter adminIds user.id user.username)
        = (PurgeFilter.fits filter.createdBeforeMs
            && (!adminIds.contains user.id && filter.fitting.window x user)) := by
  rw [PurgeFilter.isCandidate, huser.1, sqlLike_like hlike hlower hnul huser.2, after_le_eq, le_before_eq filter hcreated,
    AccountDatabase.isPurged, PurgeFilter.window]
  simp only [PurgeFilter.fitting]
  ac_rfl

theorem window_eq (hcreated : user.createdAt < 2 ^ 63)
    : (!adminIds.contains user.id && filter.window x user)
        = (PurgeFilter.fits filter.createdAfterMs
            && (!adminIds.contains user.id && filter.fitting.window x user)) := by
  rw [PurgeFilter.window, PurgeFilter.window, all_after_eq filter hcreated, all_before_eq filter hcreated]
  simp only [PurgeFilter.fitting]
  ac_rfl

end Window

section Runs

open AccountDatabase (Sheds)

variable {s s' : AccountState} {tr : List (AccountEnv × AccountLabel)} {x : Externals} {filter : PurgeFilter}

/--
No statement fails.
-/
def FaultFree (tr : List (AccountEnv × AccountLabel)) : Prop := ∀ entry ∈ tr, entry.1.dbFails = false

theorem FaultFree.of_append {tr tr' : List (AccountEnv × AccountLabel)} (h : FaultFree (tr ++ tr')) : FaultFree tr ∧ FaultFree tr' :=
  List.forall_mem_append.1 h

theorem trace_statement_calm {f : AccountEnv → AccountState → ApiResult α × AccountLabel} {r : ApiResult α}
    (h : Prog.Trace (statement f).run s tr r s') (hcalm : FaultFree tr)
    : ∃ e, r = (f e s).1 ∧ s' = (f e s).2.apply s := by
  obtain ⟨e, ⟨hfails, rfl, -, -⟩ | ⟨-, rfl, hr, hs⟩⟩ := trace_statement h
  . have hnot := hcalm _ List.mem_cons_self
    rw [hfails] at hnot
    contradiction
  . exact ⟨e, hr, hs⟩

theorem trace_deletion_bind {f : AccountEnv → AccountState → ApiResult Unit × AccountLabel} {p : Unit → Api Unit}
    {r : ApiResult Unit} (hf : ∀ e s, (f e s).1 = .ok ())
    (h : Prog.Trace (statement f >>= p).run s tr r s') (hcalm : FaultFree tr)
    : ∃ s₁ tr₁, Prog.Trace (p ()).run s₁ tr₁ r s' ∧ FaultFree tr₁ := by
  obtain ⟨err, -, hfails⟩ | ⟨u, s₁, tr₁, tr₂, hfirst, hrest, rfl⟩ := Prog.trace_run_bind_iff.1 h
  . obtain ⟨e, herr, -⟩ := trace_statement_calm hfails hcalm
    exact nomatch herr.trans (hf e s)
  . exact ⟨s₁, tr₂, hrest, hcalm.of_append.2⟩

theorem trace_deleteUserAccount_calm {userId : String} {row : StoredUser} {r : ApiResult Unit}
    (h : Prog.Trace (AccountDatabase.deleteUserAccount userId).run s tr r s') (hcalm : FaultFree tr)
    (hrow : s.app.accounts.users.lookup userId = some row) (hid : row.id = userId)
    : r = .ok () ∧ Sheds [userId] s.app.accounts s'.app.accounts := by
  rcases trace_deleteUserAccount h with ⟨⟨err, rfl⟩, -⟩ | hok
  . exfalso
    obtain ⟨err', -, hfails⟩ | ⟨account, s₁, tr₁, tr₂, hfirst, hrest, rfl⟩ := Prog.trace_run_bind_iff.1 h
    . obtain ⟨e, herr, -⟩ := trace_statement_calm hfails hcalm
      exact nomatch herr
    . obtain ⟨hcalm₁, hcalm₂⟩ := hcalm.of_append
      obtain ⟨e, haccount, -⟩ := trace_statement_calm hfirst hcalm₁
      have hsome : account.isNone = false := by
        rw [Except.ok.inj haccount, hrow, Option.filter_some_pos (by simp [hid])]
        rfl
      rw [hsome, if_neg Bool.false_ne_true] at hrest
      obtain ⟨s₂, tr₃, hrest, hcalm₃⟩ := trace_deletion_bind (fun _ _ => rfl) hrest hcalm₂
      obtain ⟨s₃, tr₄, hrest, hcalm₄⟩ := trace_deletion_bind (fun _ _ => rfl) hrest hcalm₃
      obtain ⟨s₄, tr₅, hrest, hcalm₅⟩ := trace_deletion_bind (fun _ _ => rfl) hrest hcalm₄
      obtain ⟨e', herr, -⟩ := trace_statement_calm hrest hcalm₅
      exact nomatch herr
  . exact hok

def AccountDatabase.purges (filter : PurgeFilter) (adminIds : List String) (candidate : String × String) : Bool :=
  isPurged filter adminIds candidate.1 candidate.2

theorem trace_purgeAll_calm {adminIds : List String} {candidates : List (String × String)} {count : Nat}
    {r : ApiResult Nat} (h : Prog.Trace (AccountDatabase.purgeAll filter adminIds candidates count).run s tr r s')
    (hcalm : FaultFree tr) (hnodup : (candidates.map (·.1)).Nodup)
    (hrows : ∀ candidate ∈ candidates, ∃ row, s.app.accounts.users.lookup candidate.1 = some row
      ∧ row.id = candidate.1)
    : r = .ok (count + (candidates.filter (AccountDatabase.purges filter adminIds)).length)
      ∧ Sheds ((candidates.filter (AccountDatabase.purges filter adminIds)).map (·.1)) s.app.accounts
          s'.app.accounts := by
  induction candidates generalizing count s tr with
  | nil =>
    obtain ⟨-, rfl, rfl⟩ := Prog.trace_run_pure_iff.1 h
    exact ⟨rfl, sheds_of_rows rfl⟩
  | cons candidate candidates ih =>
    obtain ⟨id, name⟩ := candidate
    obtain ⟨hnot, hnodup⟩ := List.nodup_cons.1 hnodup
    obtain ⟨⟨row, hrow, hid⟩, hrows⟩ := List.forall_mem_cons.1 hrows
    unfold AccountDatabase.purgeAll at h
    split at h
    next hpurged =>
      obtain ⟨deleted, s₁, tr₁, tr₂, hdelete, hrest, rfl⟩ := Prog.trace_run_lift_bind_iff.1 h
      clear h
      obtain ⟨hcalm₁, hcalm₂⟩ := hcalm.of_append
      obtain ⟨rfl, hsheds⟩ := trace_deleteUserAccount_calm hdelete hcalm₁ hrow hid
      have hrows₁ : ∀ candidate ∈ candidates, ∃ row, s₁.app.accounts.users.lookup candidate.1 = some row
          ∧ row.id = candidate.1 := by
        intro candidate hmem
        rw [hsheds.lookup, if_neg]
        . exact hrows candidate hmem
        . intro hsame
          exact hnot (List.mem_map.2 ⟨candidate, hmem, List.mem_singleton.1 hsame⟩)
      obtain ⟨hr, hsheds'⟩ := ih hrest hcalm₂ hnodup hrows₁
      have hpurged : AccountDatabase.purges filter adminIds (id, name) = true := hpurged
      rw [List.filter_cons_of_pos hpurged, List.length_cons, List.map_cons]
      refine ⟨?_, hsheds.trans hsheds'⟩
      rw [hr, Nat.add_assoc, Nat.add_comm 1]
    next hkept =>
      have hkept : ¬ AccountDatabase.purges filter adminIds (id, name) = true := hkept
      rw [List.filter_cons_of_neg hkept]
      exact ih h hcalm hnodup hrows

theorem nodup_ids {db : AccountDatabase} (hkeyed : db.Keyed) : (db.users.values.map (·.id)).Nodup := by
  have hkeys : db.users.values.map (·.id) = db.users.keys := by
    rw [AssocMap.values, List.map_map]
    refine List.map_congr_left ?_
    rintro ⟨id, user⟩ hmem
    exact hkeyed id user (AList.mem_lookup_iff.2 hmem)
  rw [hkeys]
  exact db.users.keys_nodup

theorem lookup_of_mem_values {db : AccountDatabase} (hkeyed : db.Keyed) {user : StoredUser}
    (h : user ∈ db.users.values) : db.users.lookup user.id = some user := by
  obtain ⟨id, hid⟩ := AssocMap.exists_lookup_of_mem_values h
  rw [hkeyed id user hid]
  exact hid

def AccountDatabase.deletes (x : Externals) (filter : PurgeFilter) (db : AccountDatabase) (user : StoredUser) : Bool :=
  filter.isCandidate x user && isPurged filter db.adminIds user.id user.username

theorem lookup_deleted {db : AccountDatabase} {p : StoredUser → Bool} (hkeyed : db.Keyed) (id : String)
    : (if id ∈ (db.users.values.filter p).map (·.id) then none else db.users.lookup id)
        = (db.users.lookup id).filter fun user => !p user := by
  cases hlookup : db.users.lookup id with
  | none => exact ite_self _
  | some user =>
    have hmem : id ∈ (db.users.values.filter p).map (·.id) ↔ p user = true := by
      rw [List.mem_map]
      constructor
      . rintro ⟨other, hother, rfl⟩
        obtain ⟨hvalue, hp⟩ := List.mem_filter.1 hother
        obtain rfl := Option.some.inj (hlookup.symm.trans (lookup_of_mem_values hkeyed hvalue))
        exact hp
      . intro hp
        exact ⟨user, List.mem_filter.2 ⟨AssocMap.mem_values_of_lookup hlookup, hp⟩, hkeyed id user hlookup⟩
    rw [Option.filter_some]
    by_cases hp : p user = true
    . rw [if_pos (hmem.2 hp), if_neg (by simp [hp])]
    . rw [if_neg (fun h => hp (hmem.1 h)), if_pos (by simp [hp])]

theorem trace_purgeAccounts_calm {r : ApiResult Nat}
    (h : Prog.Trace (AccountDatabase.purgeAccounts x filter).run s tr r s') (hcalm : FaultFree tr)
    (hkeyed : s.app.accounts.Keyed)
    : r = .ok (s.app.accounts.users.values.filter (s.app.accounts.deletes x filter)).length
      ∧ ∀ id, s'.app.accounts.users.lookup id
          = (s.app.accounts.users.lookup id).filter fun user => !s.app.accounts.deletes x filter user := by
  obtain ⟨err, -, hfails⟩ | ⟨candidates, s₁, tr₁, tr₂, hcandidates, hrest, rfl⟩ := Prog.trace_run_bind_iff.1 h
  . obtain ⟨e, herr, -⟩ := trace_statement_calm hfails hcalm
    exact nomatch herr
  obtain ⟨hcalm₁, hcalm₂⟩ := hcalm.of_append
  obtain ⟨e, hok, hsame⟩ := trace_statement_calm hcandidates hcalm₁
  obtain rfl : s₁ = s := hsame
  obtain rfl := Except.ok.inj hok
  obtain ⟨adminIds, s, tr₃, tr₄, hadmins, hrest', rfl⟩ := Prog.trace_run_lift_bind_iff.1 hrest
  obtain ⟨e', -, hids, hsame'⟩ := trace_perform hadmins
  obtain rfl : s = s₁ := hsame'
  obtain rfl : adminIds = s.app.accounts.adminIds := hids
  have hsub : ((s.app.accounts.users.values.filter (filter.isCandidate x)).map (·.id)).Nodup :=
    (nodup_ids hkeyed).sublist (List.filter_sublist.map _)
  obtain ⟨rfl, hsheds⟩ := trace_purgeAll_calm hrest' hcalm₂.of_append.2 (by simpa [Function.comp_def] using hsub) (by
    intro candidate hmem
    obtain ⟨user, huser, rfl⟩ := List.mem_map.1 hmem
    exact ⟨user, lookup_of_mem_values hkeyed (List.mem_filter.1 huser).1, rfl⟩)
  have hgone : ((s.app.accounts.users.values.filter (filter.isCandidate x)).map fun user =>
      (user.id, user.username)).filter (AccountDatabase.purges filter s.app.accounts.adminIds)
      = (s.app.accounts.users.values.filter (s.app.accounts.deletes x filter)).map
          fun user => (user.id, user.username) := by
    rw [List.filter_map, List.filter_filter]
    congr 2
    funext user
    exact Bool.and_comm _ _
  refine ⟨?_, fun id => ?_⟩
  . rw [Nat.zero_add]
    exact congrArg Except.ok ((congrArg List.length hgone).trans (List.length_map _))
  . refine (hsheds.lookup id).trans ?_
    have hids := congrArg (List.map (·.1)) hgone
    rw [List.map_map] at hids
    refine (if_congr (iff_of_eq (congrArg (id ∈ ·) hids)) rfl rfl).trans ?_
    exact lookup_deleted hkeyed id

end Runs

section Exactness

variable {s s' : AccountState} {tr : List (AccountEnv × AccountLabel)} {x : Externals} {filter : PurgeFilter}
  {r : ApiResult Nat}

def AccountDatabase.asksFor (x : Externals) (filter : PurgeFilter) (db : AccountDatabase) (user : StoredUser) : Bool :=
  !db.adminIds.contains user.id && filter.window x user

/--
A purge has deleted exactly the accounts in its window that are no administrators, and has counted them.
-/
def PurgesWindow (x : Externals) (filter : PurgeFilter) (s : AccountState) (r : ApiResult Nat) (s' : AccountState)
    : Prop :=
  r = .ok (s.app.accounts.users.values.filter (s.app.accounts.asksFor x filter)).length
    ∧ ∀ id, s'.app.accounts.users.lookup id
        = (s.app.accounts.users.lookup id).filter fun user => !s.app.accounts.asksFor x filter user

theorem purgesWindow_iff (hlike : ComparesAsSql x.sqlLike) (hlower : Lowers x.toLowercase)
    (htable : s.app.accounts.Lowered x) (hnul : filter.NulFree x)
    (h : Prog.Trace (AccountDatabase.purgeAccounts x filter).run s tr r s') (hcalm : FaultFree tr)
    : PurgesWindow x filter s r s'
        ↔ PurgeFilter.fits filter.createdAfterMs = PurgeFilter.fits filter.createdBeforeMs
          ∨ ∀ user ∈ s.app.accounts.users.values, s.app.accounts.adminIds.contains user.id = false →
              filter.fitting.window x user = false := by
  obtain ⟨rfl, hrows⟩ := trace_purgeAccounts_calm h hcalm htable.keyed
  have hdeletes : ∀ user ∈ s.app.accounts.users.values, s.app.accounts.deletes x filter user
      = (PurgeFilter.fits filter.createdBeforeMs
          && (!s.app.accounts.adminIds.contains user.id && filter.fitting.window x user)) :=
    fun user huser => isPurged_eq hlike hlower hnul (htable.created user huser) (htable.lower user huser)
  have hasks : ∀ user ∈ s.app.accounts.users.values, s.app.accounts.asksFor x filter user
      = (PurgeFilter.fits filter.createdAfterMs
          && (!s.app.accounts.adminIds.contains user.id && filter.fitting.window x user)) :=
    fun user huser => window_eq (htable.created user huser)
  constructor
  . rintro ⟨-, hwindow⟩
    by_cases hfits : PurgeFilter.fits filter.createdAfterMs = PurgeFilter.fits filter.createdBeforeMs
    . exact .inl hfits
    . refine .inr fun user huser hadmin => ?_
      have hlookup := lookup_of_mem_values htable.keyed huser
      have hsame := (hrows user.id).symm.trans (hwindow user.id)
      rw [hlookup, Option.filter_some, Option.filter_some, hdeletes user huser, hasks user huser, hadmin] at hsame
      -- the two bounds differ, and still the row is treated alike
      cases hA : PurgeFilter.fits filter.createdAfterMs <;> cases hB : PurgeFilter.fits filter.createdBeforeMs <;>
        cases hW : filter.fitting.window x user <;> simp_all
  . intro hcond
    have hagree : ∀ user ∈ s.app.accounts.users.values,
        s.app.accounts.deletes x filter user = s.app.accounts.asksFor x filter user := by
      intro user huser
      rw [hdeletes user huser, hasks user huser]
      rcases hcond with hfits | hnone
      . rw [hfits]
      . cases hadmin : s.app.accounts.adminIds.contains user.id with
        | true => simp
        | false => simp [hnone user huser hadmin]
    refine ⟨?_, fun id => ?_⟩
    . rw [List.filter_congr hagree]
    . rw [hrows]
      cases hlookup : s.app.accounts.users.lookup id with
      | none => rfl
      | some user =>
        rw [Option.filter_some, Option.filter_some, hagree user (AssocMap.mem_values_of_lookup hlookup)]

def uwe : StoredUser := { id := "u", username := "uwe", createdAt := 1000 }

def wanda : StoredUser := { id := "w", username := "wanda", createdAt := 100 }

def werner : StoredUser := { id := "a", username := "werner", createdAt := 1000 }

def uwesTable : AccountState :=
  { app := { accounts := {
      users := (([uwe, wanda, werner].map fun user => (user.id, user)).foldr
        (fun entry users => AList.insert entry.1 entry.2 users) ∅), adminIds := ["a"] } } }

theorem lowered_uwesTable : uwesTable.app.accounts.Lowered sqlExternals := by
  have hvalues : ∀ user ∈ uwesTable.app.accounts.users.values, user = uwe ∨ user = wanda ∨ user = werner := by
    intro user huser
    have hlist : uwesTable.app.accounts.users.values = [uwe, wanda, werner] := rfl
    rw [hlist] at huser
    simpa using huser
  have hnames : ∀ name ∈ [['u', 'w', 'e'], ['w', 'a', 'n', 'd', 'a'], ['w', 'e', 'r', 'n', 'e', 'r']],
      ∀ c ∈ name, c ≠ '\x00' ∧ ¬ ('A' ≤ c ∧ c ≤ 'Z') := by simp
  refine ⟨?_, fun user huser => ?_, fun user huser => ?_⟩
  . exact AssocMap.All.insert (AssocMap.All.insert (AssocMap.All.insert .empty rfl) rfl) rfl
  . rcases hvalues user huser with rfl | rfl | rfl <;> decide
  . rcases hvalues user huser with rfl | rfl | rfl
    . exact ⟨by decide, hnames _ (by decide)⟩
    . exact ⟨by decide, hnames _ (by decide)⟩
    . exact ⟨by decide, hnames _ (by decide)⟩

/--
A lower bound of 2 ^ 63 lets a purge delete everybody, where nobody is that young.
-/
def wrappedBound : PurgeFilter := { createdAfterMs := some (2 ^ 63) }

theorem not_purgesWindow_wrappedBound
    : ∃ tr r s', Prog.Trace (AccountDatabase.purgeAccounts sqlExternals wrappedBound).run uwesTable tr r s'
        ∧ FaultFree tr ∧ uwesTable.app.accounts.Lowered sqlExternals ∧ wrappedBound.NulFree sqlExternals
        ∧ ¬ PurgesWindow sqlExternals wrappedBound uwesTable r s' := by
  obtain ⟨tr, r, s', run, hinputs⟩ := Prog.exists_trace
    (AccountDatabase.purgeAccounts sqlExternals wrappedBound).run AccountEnv.calm uwesTable
  have hcalm : FaultFree tr := fun entry hentry => by rw [hinputs entry hentry]; rfl
  have hnul : wrappedBound.NulFree sqlExternals := by
    intro piece hpiece
    contradiction
  refine ⟨tr, r, s', run, hcalm, lowered_uwesTable, hnul, ?_⟩
  rintro ⟨hcount, -⟩
  rw [(trace_purgeAccounts_calm run hcalm lowered_uwesTable.keyed).1] at hcount
  exact absurd (Except.ok.inj hcount) (by decide +kernel)

/--
Names with a W, of accounts that are not too old.
-/
def recentNames : PurgeFilter := { createdAfterMs := some 500, usernameContains := some " W " }

/--
Of the three accounts with such names only one is deleted: one is too old, and one is an administrator's.
-/
theorem purgesWindow_iff_uwesTable
    : ∃ tr r s', Prog.Trace (AccountDatabase.purgeAccounts sqlExternals recentNames).run uwesTable tr r s'
        ∧ r = .ok 1 ∧ s'.app.accounts.users.lookup "u" = none
        ∧ s'.app.accounts.users.lookup "w" = some wanda ∧ s'.app.accounts.users.lookup "a" = some werner := by
  obtain ⟨tr, r, s', run, hinputs⟩ := Prog.exists_trace
    (AccountDatabase.purgeAccounts sqlExternals recentNames).run AccountEnv.calm uwesTable
  have hcalm : FaultFree tr := fun entry hentry => by rw [hinputs entry hentry]; rfl
  have hnul : recentNames.NulFree sqlExternals := by
    intro piece hpiece
    obtain rfl := Option.some.inj hpiece
    have hneedle : sqlExternals.toLowercase (Text.trim " W ") = "w" := by decide +kernel
    have hall : ∀ c ∈ ['w'], c ≠ '\x00' := by simp
    rw [hneedle]
    exact hall
  obtain ⟨hcount, hrows⟩ := (purgesWindow_iff (fun _ _ _ _ => rfl) lowers_toAsciiLower lowered_uwesTable hnul
    run hcalm).2 (.inl rfl)
  refine ⟨tr, r, s', run, ?_, ?_, ?_, ?_⟩
  . rw [hcount]
    decide +kernel
  . rw [hrows]
    decide +kernel
  . rw [hrows]
    decide +kernel
  . rw [hrows]
    decide +kernel

end Exactness

end Lqxp
