import Lqxp.Profiles.Tables
import Lqxp.Prog.Staged
import Lqxp.Services.Phantom.Blocks

/-!
This module contains the deletion of an account with all of its tables, and what it leaves behind when one of its
statements fails.
-/

namespace Lqxp

/--
The tables with rows of an account. Each block tag stands there with its account.
-/
structure AccountTables where
  accounts : AccountState
  prekeys : AssocMap String PrekeyBundle := ∅
  blocks : AssocMap String String := ∅

inductive AccountTable where
  | sessions
  | prekeys
  | blocks
  | users
  deriving DecidableEq

namespace AccountTable

def label (userId : String) : AccountTable → AccountLabel
  | .sessions => .revoked userId
  | .prekeys | .blocks => .quiet
  | .users => .deleted userId

def deleted (userId : String) (table : AccountTable) (s : AccountTables) : AccountTables :=
  match table with
  | .sessions => { s with accounts := (AccountLabel.revoked userId).apply s.accounts }
  | .prekeys => { s with prekeys := s.prekeys.erase userId }
  | .blocks => { s with blocks := s.blocks.retain fun _ owner => owner ≠ userId }
  | .users => { s with accounts := (AccountLabel.deleted userId).apply s.accounts }

/--
The rows of one account in a table: its sessions by their token hashes, its prekey, which tags are its own, and its
row of users in two pieces.
-/
def Rows : AccountTable → Type
  | .sessions => String → Option SessionRow
  | .prekeys => Option PrekeyBundle
  | .blocks => String → Bool
  | .users => Option StoredUser × Option UserSecrets

def rows (userId : String) (table : AccountTable) (s : AccountTables) : table.Rows :=
  match table with
  | .sessions => fun tokenHash => (s.accounts.app.accounts.sessions.lookup tokenHash).filter (·.userId = userId)
  | .prekeys => s.prekeys.lookup userId
  | .blocks => fun tag => s.blocks.lookup tag = some userId
  | .users => (s.accounts.app.accounts.users.lookup userId, s.accounts.secrets.lookup userId)

def noRows (table : AccountTable) : table.Rows :=
  match table with
  | .sessions => fun _ => none
  | .prekeys => none
  | .blocks => fun _ => false
  | .users => (none, none)

end AccountTable

def deletions (userId : String) : Prog.Stages AccountTable AccountEnv AccountTables AccountLabel ApiError where
  fails e := e.dbFails
  err := .internal
  quiet := .quiet
  label := AccountTable.label userId
  change := AccountTable.deleted userId

def accountsView : Prog.View AccountEnv AccountState AccountLabel AccountEnv AccountTables AccountLabel where
  env e := e
  get := AccountTables.accounts
  put accounts s := { s with accounts }
  tag _ l := l
  get_put _ _ := rfl

namespace AccountTables

abbrev TablesApi (α : Type) := ExceptT ApiError (Prog AccountEnv AccountTables AccountLabel) α

def userById (userId : String) : TablesApi (Option StoredAccount) := ExceptT.mk ((findUserById userId).run.zoom accountsView)

def deletionOrder : List AccountTable := [.sessions, .prekeys, .blocks, .users]

def deleteUserAccount (userId : String) : TablesApi Unit := do
  if (← userById userId).isNone then
    throw (.badRequest "Account not found.")
  (deletions userId).inOrder deletionOrder

end AccountTables

section Refinement

variable {userId : String}

theorem covers_stage {table : AccountTable} {f : AccountEnv → AccountState → ApiResult Unit × AccountLabel}
    (hf : ∀ e s, f e s = (.ok (), table.label userId))
    (happly : ∀ s, (table.deleted userId s).accounts = (table.label userId).apply s.accounts)
    : Prog.Covers AccountTables.accounts ((deletions userId).stage table).run (statement f).run := by
  intro e s
  show _ ∧ _ ∧ _ = (if e.dbFails then (Except.error .internal, AccountLabel.quiet) else f e s.accounts).1
  cases hfails : e.dbFails with
  | true => simp [deletions, hfails, AccountLabel.apply]
  | false => simp [deletions, hfails, hf, happly]

theorem covers_deleteUserAccount (userId : String)
    : Prog.Covers AccountTables.accounts (AccountTables.deleteUserAccount userId).run
        (AccountDatabase.deleteUserAccount userId).run := by
  refine .run_bind (.zoom (v := accountsView) (fun _ => rfl) (fun _ _ => rfl) _) fun account => ?_
  cases account with
  | none => exact rfl
  | some account =>
    refine .run_bind (covers_stage (fun _ _ => rfl) fun _ => rfl) fun _ => ?_
    refine .run_bind (covers_stage (fun _ _ => rfl) fun _ => rfl) fun _ => ?_
    refine .run_bind (covers_stage (fun _ _ => rfl) fun _ => rfl) fun _ => ?_
    refine (covers_stage (fun _ _ => rfl) fun _ => rfl).bind_done fun r => ?_
    cases r <;> rfl

theorem trace_accounts {s s' : AccountTables} {tr : List (AccountEnv × AccountLabel)} {r : ApiResult Unit}
    (h : Prog.Trace (AccountTables.deleteUserAccount userId).run s tr r s')
    : Prog.Trace (AccountDatabase.deleteUserAccount userId).run s.accounts tr r s'.accounts :=
  (covers_deleteUserAccount userId).trace h

end Refinement

namespace AccountTables

section Runs

variable {userId : String} {s s' : AccountTables} {tr : List (AccountEnv × AccountLabel)} {r : ApiResult Unit}

theorem deletions_clears (userId : String)
    : (deletions userId).Clears (AccountTable.rows userId) AccountTable.noRows where
  self table s := by
    cases table with
    | sessions =>
      funext tokenHash
      show ((s.accounts.app.accounts.sessions.retain _).lookup tokenHash).filter _ = none
      rw [AssocMap.lookup_retain]
      cases s.accounts.app.accounts.sessions.lookup tokenHash with
      | none => rfl
      | some row => by_cases howner : row.userId = userId <;> simp [howner, Option.filter_some]
    | prekeys =>
      show (s.prekeys.erase userId).lookup userId = none
      rw [AList.lookup_erase]
    | blocks =>
      funext tag
      show decide ((s.blocks.retain _).lookup tag = some userId) = false
      rw [AssocMap.lookup_retain]
      cases s.blocks.lookup tag with
      | none => rfl
      | some owner => by_cases howner : owner = userId <;> simp [howner]
    | users =>
      show ((s.accounts.app.accounts.users.erase userId).lookup userId, (s.accounts.secrets.erase userId).lookup userId)
        = (none, none)
      rw [AList.lookup_erase, AList.lookup_erase]
  other table other s hne := by
    cases table <;> cases other <;> first | rfl | exact absurd rfl hne

theorem trace_userById {r : ApiResult (Option StoredAccount)}
    (h : Prog.Trace (userById userId).run s tr r s')
    : s' = s ∧ ∃ e : AccountEnv, tr = [(e, .quiet)] ∧ (e.dbFails = true ∧ r = .error .internal
        ∨ e.dbFails = false ∧ ∃ account, r = .ok account) := by
  have h : Prog.Trace ((perform fun e s =>
      if e.dbFails then (.error .internal, .quiet)
      else (.ok (((s.app.accounts.users.lookup userId).filter (·.id = userId)).map s.account), .quiet)).zoom
        accountsView) s tr r s' := h
  rw [perform, Prog.zoom_atom] at h
  obtain ⟨e, rfl, rfl, rfl⟩ := Prog.trace_atom_iff.1 h
  cases hfails : e.dbFails with
  | true => refine ⟨?_, e, ?_, .inl ⟨hfails, ?_⟩⟩ <;> simp [accountsView, hfails, AccountLabel.apply]
  | false => refine ⟨?_, e, ?_, .inr ⟨hfails, ?_⟩⟩ <;> simp [accountsView, hfails, AccountLabel.apply]

theorem trace_deleteUserAccount (h : Prog.Trace (deleteUserAccount userId).run s tr r s')
    : s' = (deletionOrder.take ((deletions userId).succeeded tr - 1)).foldl
          (fun s table => table.deleted userId s) s
        ∧ ((r = .ok () ∧ ¬ (deletions userId).Interrupted tr
              ∧ (deletions userId).succeeded tr - 1 = deletionOrder.length)
          ∨ ((∃ err, r = .error err)
              ∧ (deletions userId).succeeded tr - 1 < deletionOrder.length)) := by
  obtain ⟨err, rfl, hfails⟩ | ⟨account, s₁, tr₁, tr₂, hfound, hrest, rfl⟩ := Prog.trace_run_bind_iff.1 h
  . obtain ⟨rfl, e, rfl, ⟨hfails, -⟩ | ⟨-, account, hok⟩⟩ := trace_userById hfails
    . rw [Prog.Stages.succeeded_cons_of_fails hfails]
      exact ⟨rfl, .inr ⟨⟨err, rfl⟩, Nat.succ_pos _⟩⟩
    . contradiction
  . obtain ⟨rfl, e, rfl, ⟨-, herr⟩ | ⟨hfails, -⟩⟩ := trace_userById hfound
    . contradiction
    rw [List.singleton_append, Prog.Stages.succeeded_cons hfails, Prog.Stages.interrupted_cons hfails,
      Nat.add_sub_cancel]
    cases account with
    | none =>
      obtain ⟨err, rfl, hthrow⟩ | ⟨_, _, _, _, hthrow, -, -⟩ := Prog.trace_run_bind_iff.1 hrest
      . obtain ⟨rfl, -, rfl⟩ := Prog.trace_run_throw_iff.1 hthrow
        exact ⟨rfl, .inr ⟨⟨err, rfl⟩, Nat.succ_pos _⟩⟩
      . obtain ⟨-, herr, -⟩ := Prog.trace_run_throw_iff.1 hthrow
        contradiction
    | some account =>
      obtain ⟨rfl, ⟨rfl, hquiet, hall⟩ | ⟨rfl, -, hsome⟩⟩ := Prog.Stages.trace_inOrder hrest
      . exact ⟨rfl, .inl ⟨rfl, hquiet, hall⟩⟩
      . exact ⟨rfl, .inr ⟨⟨_, rfl⟩, hsome⟩⟩

/--
When a deletion fails, everything is as it was before the call; when it succeeds, nothing is left of the account.
-/
structure Atomic (userId : String) (s : AccountTables) (r : ApiResult Unit) (s' : AccountTables) : Prop where
  unchanged : ∀ err, r = .error err → ∀ table, AccountTable.rows userId table s' = table.rows userId s
  gone : r = .ok () → ∀ table, AccountTable.rows userId table s' = table.noRows

/--
The tables that a deletion has cleared before the statement that fails, which is not the first.
-/
def cleared (tr : List (AccountEnv × AccountLabel)) : List AccountTable :=
  deletionOrder.take ((tr.takeWhile fun entry => !entry.1.dbFails).length - 1)

theorem deleteUserAccount_clears (h : Prog.Trace (deleteUserAccount userId).run s tr r s')
    : (r = .ok () → ∀ table, AccountTable.rows userId table s' = table.noRows)
        ∧ ∀ err, r = .error err →
            (∀ table, AccountTable.rows userId table s'
                = if table ∈ cleared tr then table.noRows else table.rows userId s)
              ∧ .users ∉ cleared tr
              ∧ ((∀ table, AccountTable.rows userId table s' = table.rows userId s)
                  ↔ ∀ table ∈ cleared tr, table.rows userId s = table.noRows) := by
  obtain ⟨rfl, hresult⟩ := trace_deleteUserAccount h
  have hclears := deletions_clears userId
  constructor
  . rintro rfl table
    obtain ⟨-, -, hall⟩ | ⟨⟨err, herr⟩, -⟩ := hresult
    . rw [hall, List.take_length]
      refine (hclears.foldl table deletionOrder s).trans (if_pos ?_)
      cases table <;> decide
    . contradiction
  . rintro err rfl
    obtain ⟨hok, -, -⟩ | ⟨-, hsome⟩ := hresult
    . contradiction
    refine ⟨fun table => hclears.foldl table _ s, fun hlast => ?_, hclears.foldl_unchanged_iff _ s⟩
    have hlist : deletionOrder = [.sessions, .prekeys, .blocks] ++ [.users] := rfl
    have hle : (deletions userId).succeeded tr - 1 ≤ [AccountTable.sessions, .prekeys, .blocks].length :=
      Nat.le_of_lt_succ hsome
    have hcleared : cleared tr = deletionOrder.take ((deletions userId).succeeded tr - 1) := rfl
    rw [hcleared, hlist, List.take_append_of_le_length hle] at hlast
    exact absurd (List.mem_of_mem_take hlast) (by decide)

end Runs

section Failures

def carolsTables : AccountTables where
  accounts :=
    { app :=
        { accounts :=
            { users := AList.insert "c" { id := "c", username := "carol" } ∅
              sessions := AList.insert "hash" { userId := "c", expiresAt := 1 } ∅ } } }
  blocks := AList.insert "tag" "c" ∅

theorem exists_trace_carolsTables
    : ∃ tr s', Prog.Trace (deleteUserAccount "c").run carolsTables tr (.error .internal) s'
        ∧ AccountTable.rows "c" .sessions s' "hash" = none := by
  refine ⟨_, _, Prog.Trace.step AccountEnv.calm <| Prog.Trace.step AccountEnv.calm <|
    Prog.Trace.step ({ AccountEnv.calm with dbFails := true } : AccountEnv) <| .done _ _, ?_⟩
  decide +kernel

theorem not_atomic_carolsTables
    : ∃ tr err s', Prog.Trace (deleteUserAccount "c").run carolsTables tr (.error err) s'
        ∧ ¬ Atomic "c" carolsTables (.error err) s' := by
  obtain ⟨tr, s', run, hgone⟩ := exists_trace_carolsTables
  refine ⟨tr, _, s', run, fun hatomic => ?_⟩
  have hsame := congrFun (hatomic.unchanged _ rfl .sessions) "hash"
  rw [hgone] at hsame
  exact absurd hsame (by decide +kernel)

theorem deleteUserAccount_clears_carolsTables
    : ∃ tr err s', Prog.Trace (deleteUserAccount "c").run carolsTables tr (.error err) s'
        ∧ ∀ table, AccountTable.rows "c" table s'
            = if table ∈ cleared tr then table.noRows else table.rows "c" carolsTables := by
  obtain ⟨tr, s', run, -⟩ := exists_trace_carolsTables
  exact ⟨tr, _, s', run, ((deleteUserAccount_clears run).2 _ rfl).1⟩

end Failures

end AccountTables

end Lqxp
