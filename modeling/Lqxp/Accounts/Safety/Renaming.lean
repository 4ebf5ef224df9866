import Lqxp.Accounts.Lemmas.Rows
import Lqxp.Prog.Commits
import Lqxp.Prog.Rely
import Lqxp.Services.Auth

/-!
This module contains the limit on renames: at most one in a week, as long as the renames of an account do
not run at the same time.
-/

namespace Lqxp

/--
The times of the renames of an account that its row remembers.
-/
def AccountState.usernameChanges (s : AccountState) (userId : String) : List Nat :=
  ((s.secrets.lookup userId).map (·.usernameChanges)).getD []

/--
What a rename has read so far: the times in the row of the account, and then the clock.
-/
inductive RenameMemory where
  | start
  | row (changes : List Nat)
  | timed (changes : List Nat) (now : Nat)

abbrev RenameLabel := AccountEnv × AccountState × AccountLabel

variable (userId : String)

def RenameMemory.next (g : RenameMemory) (l : RenameLabel) : RenameMemory :=
  match g with
  | .start => .row (l.2.1.usernameChanges userId)
  | .row changes => .timed changes l.1.now
  | .timed changes now => .timed changes now

/--
Any number of renames of one account at the same time, each with the new name as its request.
-/
def renames (x : Externals)
    : Prog.System String AccountEnv AccountState RenameLabel RenameMemory (ApiResult PublicUser) where
  handle username := (AccountDatabase.changeUsername x userId username).run.observe
  start _ := .start
  next := RenameMemory.next userId

abbrev RenameEvent := Prog.Event String AccountEnv RenameLabel RenameMemory

abbrev RenamePool := Prog.Pool AccountEnv AccountState RenameLabel RenameMemory (ApiResult PublicUser)

/--
What a step of a rename can do: nothing, or give the account another name, when no time in the row as it
has been read is within the last week.
-/
def RenameStep (g : RenameMemory) (_e : AccountEnv) (s : AccountState) (l : AccountLabel)
    (s' : AccountState) : Prop :=
  s' = s ∧ (∀ other name stamps, l ≠ .renamed other name stamps)
    ∨ ∃ name changes now, l = .renamed userId name [now] ∧ s' = l.apply s ∧ g = .timed changes now
      ∧ ∀ stamp ∈ changes, stamp + usernameChangeWindowMs < now

variable {userId}

theorem usernameChanges_of_account {s : AccountState} {user : StoredUser}
    : (s.account user).secrets.usernameChanges = s.usernameChanges user.id := by
  rw [AccountState.account, AccountState.usernameChanges]
  cases s.secrets.lookup user.id <;> rfl

/--
A piece of a rename makes only allowed steps.
-/
abbrev RenameSound (userId : String) (post : ApiResult α → RenameMemory → Prop) (p : Api α)
    (g : RenameMemory) : Prop :=
  Prog.Observed (RenameMemory.next userId) (RenameStep userId) post p.run g

namespace RenameSound

variable {g : RenameMemory}

theorem pure (a : α) : RenameSound userId (fun _ _ => True) (pure a) g := trivial

theorem throw (err : ApiError) : RenameSound userId (fun _ _ => True) (throw err : Api α) g := trivial

theorem bind {p : Api α} {f : α → Api β}
    (h : RenameSound userId
      (fun r g' => ∀ a, r = .ok a → RenameSound userId (fun _ _ => True) (f a) g') p g)
    : RenameSound userId (fun _ _ => True) (p >>= f) g := by
  refine Prog.Observed.bind (Prog.Spec.mono h fun r g' hr => ?_)
  cases r with
  | ok a => exact hr a rfl
  | error err => trivial

theorem statement {post : ApiResult α → RenameMemory → Prop}
    {f : AccountEnv → AccountState → ApiResult α × AccountLabel} (herror : ∀ err g', post (.error err) g')
    (h : ∀ e s, RenameStep userId g e s (f e s).2 ((f e s).2.apply s)
      ∧ post (f e s).1 (g.next userId (e, s, (f e s).2)))
    : RenameSound userId post (statement f) g := by
  refine Prog.Observed.atom fun e s => ?_
  dsimp only
  split
  . exact ⟨.inl ⟨rfl, nofun⟩, herror _ _⟩
  . exact h e s

theorem findUserById {post : ApiResult (Option StoredAccount) → RenameMemory → Prop}
    (herror : ∀ err g', post (.error err) g')
    (h : ∀ e s account, (∀ a, account = some a → a.secrets.usernameChanges = s.usernameChanges userId) →
      post (.ok account) (g.next userId (e, s, .quiet)))
    : RenameSound userId post (findUserById userId) g := by
  refine .statement herror fun e s => ⟨.inl ⟨rfl, nofun⟩, h e s _ fun a ha => ?_⟩
  obtain ⟨user, huser, rfl⟩ := Option.map_eq_some_iff.1 ha
  rw [usernameChanges_of_account, of_decide_eq_true (Option.filter_eq_some_iff.1 huser).2]

theorem clock {changes : List Nat} {post : ApiResult Nat → RenameMemory → Prop}
    (h : ∀ now, post (.ok now) (.timed changes now))
    : RenameSound userId post (ExceptT.lift (perform fun e _ => (e.now, .quiet))) (.row changes) :=
  Prog.Observed.bind <| Prog.Observed.atom fun e _ => ⟨.inl ⟨rfl, nofun⟩, h e.now⟩

theorem findUserByUsername {x : Externals} {username : String}
    {post : ApiResult (Option StoredAccount) → RenameMemory → Prop} {changes : List Nat} {now : Nat}
    (h : ∀ r, post r (.timed changes now))
    : RenameSound userId post (findUserByUsername x username) (.timed changes now) := by
  refine Prog.Observed.atom fun e s => ?_
  dsimp only
  split
  . exact ⟨.inl ⟨rfl, nofun⟩, h _⟩
  . split
    . exact ⟨.inl ⟨rfl, nofun⟩, h _⟩
    . exact ⟨.inl ⟨rfl, nofun⟩, h _⟩

theorem updateUsername {username : String} {post : ApiResult Unit → RenameMemory → Prop}
    {changes : List Nat} {now : Nat} (hold : ∀ stamp ∈ changes, stamp + usernameChangeWindowMs < now)
    (h : ∀ r, post r (.timed changes now))
    : RenameSound userId post (updateUsername userId username [now]) (.timed changes now) := by
  refine Prog.Observed.atom fun e s => ?_
  dsimp only
  split
  . exact ⟨.inl ⟨rfl, nofun⟩, h _⟩
  . split
    . exact ⟨.inl ⟨rfl, nofun⟩, h _⟩
    . exact ⟨.inr ⟨username, changes, now, rfl, rfl, rfl, hold⟩, h _⟩

end RenameSound

theorem changeUsername_sound (x : Externals) (username : String)
    : RenameSound userId (fun _ _ => True) (AccountDatabase.changeUsername x userId username) .start := by
  refine .bind ?_
  cases validateUsername x username with
  | error err => exact fun _ h => nomatch h
  | ok username =>
    intro validated hvalidated
    obtain rfl := Except.ok.inj hvalidated
    refine .bind <| .findUserById (fun _ _ _ h => nomatch h) fun e s row hrow account haccount => ?_
    obtain rfl := Except.ok.inj haccount
    dsimp only [RenameMemory.next]
    split
    next account =>
      have hchanges := hrow account rfl
      split
      . exact .pure _
      . refine .bind <| .clock fun now now' hnow => ?_
        obtain rfl := Except.ok.inj hnow
        split
        . exact .bind fun _ h => nomatch h
        next hfree =>
          have hold : ∀ stamp ∈ s.usernameChanges userId, stamp + usernameChangeWindowMs < now := by
            intro stamp hmem
            have hnot := List.filter_eq_nil_iff.1 (not_not.1 hfree) stamp (hchanges ▸ hmem)
            simp only [decide_eq_true_eq] at hnot
            omega
          rw [not_not.1 hfree]
          refine .bind <| .findUserByUsername fun r existing _ => ?_
          split
          . exact .bind fun _ h => nomatch h
          . refine .bind <| .updateUsername hold fun r u _ => ?_
            refine .bind <| .findUserById (fun _ _ _ h => nomatch h) fun e s updated _ updated' _ => ?_
            split
            . exact .pure _
            . exact .throw _
    next => exact .throw _

/--
The renames, each with the time that it has read, and the reads of the row before them.
-/
def renameCommits : Prog.Commits String AccountEnv RenameLabel RenameMemory Nat where
  value
    | .act _ (.timed _ now) _ (_, _, .renamed ..) => some now
    | _ => none
  reader
    | .act i .start _ _ => some i
    | _ => none
  apart ev i h := by
    split at h
    . rfl
    . contradiction

open Prog.Commits

def clockTimes (tr : List RenameEvent) : List Nat :=
  tr.filterMap fun ev =>
    match ev with
    | .act _ _ e _ => some e.now
    | .start .. => none

def rememberedChanges (changes₀ times : List Nat) : List Nat :=
  match times.getLast? with
  | none => changes₀
  | some now => [now]

variable {x : Externals} {p q : RenamePool} {tr : List RenameEvent}

def RenameMemory.changes? : RenameMemory → Option (List Nat)
  | .start => none
  | .row changes | .timed changes _ => some changes

def RenameMemory.now? : RenameMemory → Option Nat
  | .timed _ now => some now
  | _ => none

/--
A rename has read the row as the last rename before its read has left it, and its time is one of the clock.
-/
def RenameMemory.Follows (g : RenameMemory) (changes₀ : List Nat) (tr : List RenameEvent) (i : Nat) : Prop :=
  (∀ changes, g.changes? = some changes →
      changes = rememberedChanges changes₀ (renameCommits.seen i tr))
    ∧ ∀ now, g.now? = some now → now ∈ clockTimes tr

/--
The row remembers the last rename.
-/
structure RowFollows (userId : String) (changes₀ : List Nat) (tr : List RenameEvent) (s : AccountState)
    (memory : Nat → Option RenameMemory) : Prop where
  exists_row : (s.secrets.lookup userId).isSome
  row : s.usernameChanges userId = rememberedChanges changes₀ (renameCommits.all tr)
  times : ∀ now ∈ renameCommits.all tr, now ∈ clockTimes tr
  threads : ∀ i g, memory i = some g → g.Follows changes₀ tr i

section Steps

variable {changes₀ : List Nat} {s s' : AccountState} {memory : Nat → Option RenameMemory} {i j : Nat}
  {g : RenameMemory} {e : AccountEnv} {l : AccountLabel} {ev : RenameEvent}

theorem mem_clockTimes_concat {now : Nat} (h : now ∈ clockTimes tr) : now ∈ clockTimes (tr ++ [ev]) := by
  rw [clockTimes, List.filterMap_append]
  exact List.mem_append_left _ h

theorem mem_clockTimes_act {l : RenameLabel} : e.now ∈ clockTimes (tr ++ [.act i g e l]) := by
  simp [clockTimes]

theorem RenameMemory.Follows.concat (h : g.Follows changes₀ tr j) (hreader : renameCommits.reader ev ≠ some j)
    : g.Follows changes₀ (tr ++ [ev]) j := by
  refine ⟨fun changes hchanges => ?_, fun now hnow => mem_clockTimes_concat (h.2 now hnow)⟩
  rw [seen_of_not_read hreader]
  exact h.1 changes hchanges

theorem follows_next {l : RenameLabel}
    (hrow : l.2.1.usernameChanges userId = rememberedChanges changes₀ (renameCommits.all tr))
    (henv : l.1 = e) (h : g.Follows changes₀ tr i)
    : (g.next userId l).Follows changes₀ (tr ++ [.act i g e l]) i := by
  cases g with
  | start =>
    refine ⟨fun changes hchanges => ?_, nofun⟩
    obtain rfl := Option.some.inj hchanges
    rw [seen_of_read rfl, hrow]
  | row changes =>
    refine ⟨(h.concat (by simp [renameCommits])).1, fun now hnow => ?_⟩
    obtain rfl := Option.some.inj hnow
    rw [henv]
    exact mem_clockTimes_act
  | timed changes now => exact h.concat (by simp [renameCommits])

theorem rowFollows_start (h : RowFollows userId changes₀ tr s memory) (username : String)
    : RowFollows userId changes₀ (tr ++ [.start i username]) s
        (Function.update memory i (some .start)) where
  exists_row := h.exists_row
  row := by rw [all_concat]; simpa [renameCommits] using h.row
  times now hmem := by
    rw [all_concat] at hmem
    exact mem_clockTimes_concat (h.times now (by simpa [renameCommits] using hmem))
  threads j g hg := by
    by_cases hj : j = i
    . subst hj
      rw [Function.update_self] at hg
      obtain rfl := Option.some.inj hg
      exact ⟨nofun, nofun⟩
    . rw [Function.update_of_ne hj] at hg
      exact (h.threads j g hg).concat (by simp [renameCommits])

theorem rowFollows_act (hmemory : memory i = some g) (hstep : RenameStep userId g e s l s')
    (h : RowFollows userId changes₀ tr s memory)
    : RowFollows userId changes₀ (tr ++ [.act i g e (e, s, l)]) s'
        (Function.update memory i (some (g.next userId (e, s, l)))) := by
  have hthreads : ∀ j g', Function.update memory i (some (g.next userId (e, s, l))) j = some g' →
      g'.Follows changes₀ (tr ++ [.act i g e (e, s, l)]) j := by
    intro j g' hg'
    by_cases hj : j = i
    . subst hj
      rw [Function.update_self] at hg'
      obtain rfl := Option.some.inj hg'
      exact follows_next h.row rfl (h.threads j g hmemory)
    . rw [Function.update_of_ne hj] at hg'
      refine (h.threads j g' hg').concat fun hreader => hj ?_
      cases g <;> simp [renameCommits] at hreader
      exact hreader.symm
  obtain ⟨rfl, hother⟩ | ⟨name, changes, now, rfl, rfl, rfl, -⟩ := hstep
  . have hvalue : renameCommits.value (.act i g e (e, s', l)) = none := by
      cases g with
      | timed changes now =>
        cases l with
        | renamed other name stamps => exact absurd rfl (hother other name stamps)
        | _ => rfl
      | _ => rfl
    refine ⟨h.exists_row, ?_, fun now hmem => ?_, hthreads⟩
    . rw [all_concat, hvalue]
      simpa using h.row
    . rw [all_concat, hvalue] at hmem
      exact mem_clockTimes_concat (h.times now (by simpa using hmem))
  . obtain ⟨secrets, hsecrets⟩ := Option.isSome_iff_exists.1 h.exists_row
    refine ⟨?_, ?_, fun now' hmem => ?_, hthreads⟩
    . simp [AccountLabel.apply, AccountState.updateSecrets, AccountState.updateUser,
        AccountState.withAccounts, hsecrets]
    . rw [all_concat]
      simp [AccountLabel.apply, AccountState.updateSecrets, AccountState.updateUser,
        AccountState.withAccounts, AccountState.usernameChanges, hsecrets, renameCommits,
        rememberedChanges]
    . rw [all_concat] at hmem
      obtain hmem | hmem := List.mem_append.1 hmem
      . exact mem_clockTimes_concat (h.times now' hmem)
      . obtain rfl : now' = now := by simpa [renameCommits] using hmem
        exact mem_clockTimes_concat ((h.threads i _ hmemory).2 now' rfl)

end Steps

theorem steps_of_renames (hrun : Prog.Run (renames userId x) (fun _ _ _ _ _ => True) p tr q)
    (hp : p.threads = [])
    : Prog.Run (renames userId x)
        (fun g e s l s' => l.1 = e ∧ l.2.1 = s ∧ RenameStep userId g e s l.2.2 s') p tr q := by
  obtain ⟨hsteps, -⟩ := hrun.of_spec (changeUsername_sound x) (by simp [hp])
  exact hsteps.mono fun _ _ _ _ _ h => h.2

theorem rowFollows_of_steps
    (hsteps : Prog.Run (renames userId x)
      (fun g e s l s' => l.1 = e ∧ l.2.1 = s ∧ RenameStep userId g e s l.2.2 s') p tr q)
    (hp : p.threads = []) (hrow : (p.state.secrets.lookup userId).isSome)
    : RowFollows userId (p.state.usernameChanges userId) tr q.state q.memory := by
  refine Prog.Run.memory_induction
    (fun tr s memory => RowFollows userId (p.state.usernameChanges userId) tr s memory) ?_ ?_ ?_ hsteps
  . exact ⟨hrow, rfl, fun _ hmem => absurd hmem List.not_mem_nil,
      fun i g hg => by simp [Prog.Pool.memory, hp] at hg⟩
  . intro tr s memory i username _ h
    exact rowFollows_start h username
  . rintro tr s memory i g e ⟨_, _, l⟩ s' hmemory ⟨rfl, rfl, hstep⟩ h
    exact rowFollows_act hmemory hstep h

/--
No rename comes between another one's read of the row and its write, unless it is a week older.
-/
def RenamesUnraced (tr : List RenameEvent) : Prop :=
  ∀ pre i g e l post now, tr = pre ++ .act i g e l :: post →
    renameCommits.value (.act i g e l) = some now →
      ∀ earlier ∈ renameCommits.since i pre, earlier + usernameChangeWindowMs < now

theorem apart_of_renamed {changes₀ : List Nat} {s s' : AccountState} {memory : Nat → Option RenameMemory}
    {i : Nat} {g : RenameMemory} {e : AccountEnv} {l : AccountLabel} {now earlier : Nat}
    (hmemory : memory i = some g) (hstep : RenameStep userId g e s l s')
    (hfollows : RowFollows userId changes₀ tr s memory)
    (hapart : (renameCommits.all tr).Pairwise (· + usernameChangeWindowMs < ·))
    (hunraced : ∀ earlier ∈ renameCommits.since i tr, earlier + usernameChangeWindowMs < now)
    (hnow : renameCommits.value (.act i g e (e, s, l)) = some now) (hmem : earlier ∈ renameCommits.all tr)
    : earlier + usernameChangeWindowMs < now := by
  obtain hseen | hsince := mem_seen_or_since i hmem
  . obtain ⟨rfl, hother⟩ | ⟨name, changes, now', rfl, -, rfl, hold⟩ := hstep
    . cases g with
      | timed changes now =>
        cases l with
        | renamed other name stamps => exact absurd rfl (hother other name stamps)
        | _ => contradiction
      | _ => contradiction
    . obtain rfl := Option.some.inj hnow
      -- the row as it has been read holds the last rename before the read
      have hchanges := (hfollows.threads i _ hmemory).1 changes rfl
      have hsorted : (renameCommits.seen i tr).Pairwise (· ≤ ·) :=
        (hapart.sublist (seen_sublist i tr)).imp fun h => by omega
      have hne : renameCommits.seen i tr ≠ [] := List.ne_nil_of_mem hseen
      have hlast := hsorted.rel_getLast hseen
      rw [rememberedChanges, List.getLast?_eq_some_getLast hne] at hchanges
      subst hchanges
      have := hold _ (List.mem_singleton_self _)
      omega
  . exact hunraced earlier hsince

/--
Renames that do not race are more than a week apart, and the row remembers those of the last week.
-/
theorem renames_apart (hrun : Prog.Run (renames userId x) (fun _ _ _ _ _ => True) p tr q)
    (hp : p.threads = []) (hrow : (p.state.secrets.lookup userId).isSome) (hunraced : RenamesUnraced tr)
    : (renameCommits.all tr).Pairwise (· + usernameChangeWindowMs < ·)
        ∧ ∀ now, (∀ time ∈ clockTimes tr, time ≤ now) → ∀ time ∈ renameCommits.all tr,
          now ≤ time + usernameChangeWindowMs → time ∈ q.state.usernameChanges userId := by
  have hsteps := steps_of_renames hrun hp
  have hfollows := rowFollows_of_steps hsteps hp hrow
  have hapart : (renameCommits.all tr).Pairwise (· + usernameChangeWindowMs < ·) := by
    clear hrun hfollows
    induction hsteps with
    | nil => exact .nil
    | @snoc q r tr ev steps step ih =>
      have ih := ih fun pre i g e l post now heq => hunraced pre i g e l (post ++ [ev]) now (by simp [heq])
      rw [all_concat, List.pairwise_append]
      refine ⟨ih, by cases renameCommits.value ev <;> simp, fun earlier hearlier now hnow => ?_⟩
      cases ev with
      | start i username => simp [renameCommits] at hnow
      | act i g e l =>
        obtain ⟨⟨henv, hstate, hstep⟩, hmemory, -⟩ := step.memory_act
        obtain ⟨e', s', l⟩ := l
        obtain rfl : e' = e := henv
        obtain rfl : s' = q.state := hstate
        exact apart_of_renamed hmemory hstep (rowFollows_of_steps steps hp hrow) ih
          (hunraced tr i g e' _ [] now rfl (Option.mem_toList.1 hnow)) (Option.mem_toList.1 hnow) hearlier
  refine ⟨hapart, fun now hlatest time hmem hrecent => ?_⟩
  -- all renames but the last one are too old
  have hne : renameCommits.all tr ≠ [] := List.ne_nil_of_mem hmem
  rw [hfollows.row, rememberedChanges, List.getLast?_eq_some_getLast hne, List.mem_singleton]
  by_contra hnot
  have hlast := hlatest _ (hfollows.times _ (List.getLast_mem hne))
  rw [← List.dropLast_append_getLast hne, List.pairwise_append] at hapart
  rw [← List.dropLast_append_getLast hne] at hmem
  have hold := (List.mem_append.1 hmem).resolve_right fun h => hnot (List.mem_singleton.1 h)
  have := hapart.2.2 time hold _ (List.mem_singleton_self _)
  omega

section Examples

def unraced (tr : List RenameEvent) : Bool :=
  (List.range tr.length).all fun n =>
    match tr[n]? with
    | some (.act i g e l) =>
      (renameCommits.value (.act i g e l)).all fun now =>
        (renameCommits.since i (tr.take n)).all (· + usernameChangeWindowMs < now)
    | _ => true

theorem renamesUnraced_of_unraced {tr : List RenameEvent} (h : unraced tr) : RenamesUnraced tr := by
  rintro pre i g e l post now rfl hnow earlier hmem
  have hn := List.all_eq_true.1 h pre.length (by simp)
  simp only [List.getElem?_append_right (Nat.le_refl _), Nat.sub_self, List.getElem?_cons_zero, hnow,
    Option.all_some, List.take_left'] at hn
  exact of_decide_eq_true (List.all_eq_true.1 hn earlier hmem)

def renamePool : RenamePool := { state := oneAccount.state, threads := [] }

/--
A rename that is served at one time, and another one a little more than a week later.
-/
def twoRenames : List (Prog.Cmd String AccountEnv) :=
  Prog.Cmd.serve "anna" 0 5 { AccountEnv.calm with now := 1700000000000 }
    ++ Prog.Cmd.serve "berta" 1 5 { AccountEnv.calm with now := 1700604800001 }

theorem renames_apart_twoRenames :
    ∃ tr q, Prog.Run (renames "u" plainExternals) (fun _ _ _ _ _ => True) renamePool tr q
      ∧ renameCommits.all tr = [1700000000000, 1700604800001]
      ∧ (renameCommits.all tr).Pairwise (· + usernameChangeWindowMs < ·) := by
  obtain ⟨tr, q, hrun, htest⟩ := Prog.Run.exists_of_exec (renames "u" plainExternals)
    (fun _ _ _ _ _ => true) twoRenames renamePool
    (fun tr _ => renameCommits.all tr = [1700000000000, 1700604800001] && unraced tr)
    (by decide +kernel)
  rw [Bool.and_eq_true] at htest
  have hrun : Prog.Run (renames "u" plainExternals) (fun _ _ _ _ _ => True) _ _ _ :=
    hrun.mono fun _ _ _ _ _ _ => trivial
  exact ⟨tr, q, hrun, of_decide_eq_true htest.1,
    (renames_apart hrun rfl (by decide +kernel) (renamesUnraced_of_unraced htest.2)).1⟩

/--
Two renames that both read the row before either of them writes it.
-/
def racingRenames : List (Prog.Cmd String AccountEnv) :=
  [.start "anna", .start "berta"]
    ++ (List.replicate 3 0 ++ List.replicate 3 1).map (fun i =>
      .act i { AccountEnv.calm with now := 1700000000000 + i })
    ++ [.act 0 { AccountEnv.calm with now := 1700000000001 },
      .act 1 { AccountEnv.calm with now := 1700000000001 }]

/--
Both change the name, a millisecond apart, and the row forgets the first of them.
-/
theorem not_renames_apart :
    ∃ tr q, Prog.Run (renames "u" plainExternals) (fun _ _ _ _ _ => True) renamePool tr q
      ∧ (clockTimes tr).Pairwise (· ≤ ·)
      ∧ renameCommits.all tr = [1700000000000, 1700000000001]
      ∧ q.state.usernameChanges "u" = [1700000000001]
      ∧ (q.state.app.accounts.users.lookup "u").map (·.username) = some "berta" := by
  obtain ⟨tr, q, hrun, htest⟩ := Prog.Run.exists_of_exec (renames "u" plainExternals)
    (fun _ _ _ _ _ => true) racingRenames renamePool
    (fun tr q => decide ((clockTimes tr).Pairwise (· ≤ ·)
      ∧ renameCommits.all tr = [1700000000000, 1700000000001]
      ∧ q.state.usernameChanges "u" = [1700000000001]
      ∧ (q.state.app.accounts.users.lookup "u").map (·.username) = some "berta"))
    (by decide +kernel)
  exact ⟨tr, q, hrun.mono fun _ _ _ _ _ _ => trivial, of_decide_eq_true htest⟩

end Examples

end Lqxp
