import Mathlib.Data.Int.Order.Basic
import Lqxp.Core.Result
import Lqxp.Data.AssocMap
import Lqxp.Prog.Commits
import Lqxp.Prog.Exec
import Lqxp.Prog.Pool
import Lqxp.Prog.Rely

/-!
This module contains the storage of the encrypted friend list, one versioned blob for each account, and the order of
the versions when several devices write one at the same time.
-/

namespace Lqxp

def maxSocialBlobBytes : Nat := 64 * 1024

/--
The columns of a user that hold the blob.
-/
structure SocialBlob where
  socialBlobVer : Int := 0
  socialBlob : Option String := none
  deriving DecidableEq

abbrev SocialTable := AssocMap String SocialBlob

structure SocialBlobPutRequest where
  ver : Int
  blob : String

inductive SocialLabel where
  | quiet
  /-- A look at the version of the blob of an account. -/
  | read (userId : String) (ver : Int)
  /-- A new version of it, in a row that exists. -/
  | wrote (userId : String) (ver : Int)
  deriving DecidableEq

/--
A piece of a handler, which may fail. The outside world supplies to each statement whether it fails.
-/
abbrev Social (α : Type) := ExceptT ApiError (Prog Bool SocialTable SocialLabel) α

def SocialTable.version (table : SocialTable) (userId : String) : Int :=
  ((table.lookup userId).getD {}).socialBlobVer

def getSocialBlob (userId : String) : Social (Int × Option String) :=
  ExceptT.mk <| .atom fun fails table =>
    if fails then
      (.error .internal, .quiet, table)
    else
      let row := (table.lookup userId).getD {}
      (.ok (row.socialBlobVer, row.socialBlob), .read userId row.socialBlobVer, table)

def updateSocialBlob (userId : String) (ver : Int) (blob : String) : Social Unit :=
  ExceptT.mk <| .atom fun fails table =>
    if fails then
      (.error .internal, .quiet, table)
    else
      match table.lookup userId with
      | none => (.ok (), .quiet, table)
      | some _ =>
        (.ok (), .wrote userId ver,
          table.insert userId { socialBlobVer := ver, socialBlob := some blob })

/--
Gives back the current version when it is not older.
-/
def putSocialBlob (userId : String) (ver : Int) (blob : String) : Social (Option Int) := do
  let (currentVer, _) ← getSocialBlob userId
  if ver ≤ currentVer then
    return some currentVer
  updateSocialBlob userId ver blob
  return none

/--
The endpoint behind the authentication. `some` stands for a conflict, with the current version.
-/
def socialBlobPutHandler (userId : String) (body : SocialBlobPutRequest) : Social (Option Int) := do
  match Base64.decode body.blob with
  | none => throw (.badRequest "Invalid blob encoding.")
  | some decoded =>
    if maxSocialBlobBytes < decoded.length then
      throw (.badRequest "Social blob too large.")
    putSocialBlob userId body.ver body.blob

end Lqxp

namespace Lqxp

structure SocialPut where
  userId : String
  ver : Int
  blob : String

/--
What a run of a put remembers: the version that it has seen.
-/
structure PutMemory where
  put : SocialPut
  seen : Option Int := none

def PutMemory.next (g : PutMemory) : SocialLabel → PutMemory
  | .read _ ver => { g with seen := some ver }
  | _ => g

def socialPuts : Prog.System SocialPut Bool SocialTable SocialLabel PutMemory (ApiResult (Option Int)) where
  handle put := (putSocialBlob put.userId put.ver put.blob).run
  start put := { put }
  next := PutMemory.next

abbrev SocialEvent := Prog.Event SocialPut Bool SocialLabel PutMemory

/--
What a step of a put can do, by its label.
-/
def SocialStep (g : PutMemory) (_fails : Bool) (table : SocialTable) (l : SocialLabel)
    (table' : SocialTable) : Prop :=
  match l with
  | .quiet => table' = table
  | .read userId ver => table' = table ∧ userId = g.put.userId ∧ ver = table.version userId
  | .wrote userId ver =>
    userId = g.put.userId ∧ (∃ seen, g.seen = some seen ∧ seen < ver) ∧ table'.version userId = ver
      ∧ ∀ other, other ≠ userId → table'.version other = table.version other

theorem putSocialBlob_spec (put : SocialPut)
    : Prog.Spec PutMemory.next SocialStep (fun _ _ => True)
        (putSocialBlob put.userId put.ver put.blob).run { put } := by
  refine Prog.Spec.bind_iff.2 (Prog.Spec.atom_iff.2 fun fails table => ?_)
  split
  . exact ⟨rfl, trivial⟩
  . refine ⟨⟨rfl, rfl, rfl⟩, ?_⟩
    dsimp only [ExceptT.bindCont]
    split
    . exact trivial
    next hnew =>
      refine Prog.Spec.bind_iff.2 (Prog.Spec.atom_iff.2 fun fails table' => ?_)
      split
      . exact ⟨rfl, trivial⟩
      . split
        . exact ⟨rfl, trivial⟩
        next row hrow =>
          refine ⟨⟨rfl, ⟨_, rfl, Int.not_le.1 hnew⟩, ?_, fun other hne => ?_⟩, trivial⟩
          . simp [SocialTable.version]
          . simp [SocialTable.version, AList.lookup_insert_ne hne]

/--
The writes of the blob of an account, and the looks at its version before them.
-/
def socialCommits (userId : String) : Prog.Commits SocialPut Bool SocialLabel PutMemory Int where
  value
    | .act _ _ _ (.wrote other ver) => if other = userId then some ver else none
    | _ => none
  reader
    | .act i _ _ (.read other _) => if other = userId then some i else none
    | _ => none
  apart ev i h := by
    split at h
    . rfl
    . contradiction

open Prog.Commits

variable {userId : String} {p q : Prog.Pool Bool SocialTable SocialLabel PutMemory (ApiResult (Option Int))}
  {tr : List SocialEvent}

/--
The stored version is the last one written, and a put has seen the one that was the last when it looked.
-/
def SeenLast (userId : String) (ver₀ : Int) (tr : List SocialEvent) (table : SocialTable)
    (memory : Nat → Option PutMemory) : Prop :=
  table.version userId = ((socialCommits userId).all tr).getLastD ver₀
    ∧ ∀ i g seen, memory i = some g → g.put.userId = userId → g.seen = some seen →
      seen = ((socialCommits userId).seen i tr).getLastD ver₀

theorem seenLast_start {ver₀ : Int} {table : SocialTable} {memory : Nat → Option PutMemory} {i : Nat}
    {put : SocialPut} (h : SeenLast userId ver₀ tr table memory)
    : SeenLast userId ver₀ (tr ++ [.start i put]) table (Function.update memory i (some { put })) := by
  refine ⟨by rw [all_concat]; simpa [socialCommits] using h.1, ?_⟩
  intro j g seen hg huser hseen
  rw [seen_of_not_read (by simp [socialCommits])]
  by_cases hj : j = i
  . subst hj
    rw [Function.update_self] at hg
    obtain rfl := Option.some.inj hg
    contradiction
  . rw [Function.update_of_ne hj] at hg
    exact h.2 j g seen hg huser hseen

theorem seenLast_act {ver₀ : Int} {table table' : SocialTable} {memory : Nat → Option PutMemory} {i : Nat}
    {g : PutMemory} {fails : Bool} {l : SocialLabel} (hmemory : memory i = some g)
    (hstep : SocialStep g fails table l table') (h : SeenLast userId ver₀ tr table memory)
    : SeenLast userId ver₀ (tr ++ [.act i g fails l]) table'
        (Function.update memory i (some (g.next l))) := by
  obtain ⟨hlast, hseen⟩ := h
  -- what the thread itself has seen, and what the other threads have seen
  have hothers (hreader : ∀ j, j ≠ i → (socialCommits userId).reader (.act i g fails l) ≠ some j)
      (hown : ∀ seen, (g.next l).put.userId = userId → (g.next l).seen = some seen →
        seen = ((socialCommits userId).seen i (tr ++ [.act i g fails l])).getLastD ver₀)
      : ∀ j g' seen, Function.update memory i (some (g.next l)) j = some g' → g'.put.userId = userId →
        g'.seen = some seen →
          seen = ((socialCommits userId).seen j (tr ++ [.act i g fails l])).getLastD ver₀ := by
    intro j g' seen hg huser hsome
    by_cases hj : j = i
    . subst hj
      rw [Function.update_self] at hg
      obtain rfl := Option.some.inj hg
      exact hown seen huser hsome
    . rw [Function.update_of_ne hj] at hg
      rw [seen_of_not_read (hreader j hj)]
      exact hseen j g' seen hg huser hsome
  cases l with
  | quiet =>
    obtain rfl := hstep
    refine ⟨by rw [all_concat]; simpa [socialCommits] using hlast, hothers (by simp [socialCommits]) ?_⟩
    intro seen huser hsome
    rw [seen_of_not_read (by simp [socialCommits])]
    exact hseen i g seen hmemory huser hsome
  | read user ver =>
    obtain ⟨rfl, rfl, rfl⟩ := hstep
    refine ⟨by rw [all_concat]; simpa [socialCommits] using hlast, hothers ?_ ?_⟩
    . intro j hj
      simp only [socialCommits]
      split
      . simpa using hj.symm
      . exact nofun
    . intro seen huser hsome
      obtain rfl := Option.some.inj hsome
      have huser : g.put.userId = userId := huser
      rw [seen_of_read (by simp [socialCommits, huser]), ← hlast, huser]
  | wrote user ver =>
    obtain ⟨rfl, -, hwritten, hframe⟩ := hstep
    refine ⟨?_, hothers (by simp [socialCommits]) ?_⟩
    . rw [all_concat]
      simp only [socialCommits]
      split
      next huser => simp [← huser, hwritten]
      next huser => simpa [socialCommits] using (hframe userId (Ne.symm huser)).trans hlast
    . intro seen huser hsome
      rw [seen_of_not_read (by simp [socialCommits])]
      exact hseen i g seen hmemory huser hsome

theorem steps_of_run (hrun : Prog.Run socialPuts (fun _ _ _ _ _ => True) p tr q) (hp : p.threads = [])
    : Prog.Run socialPuts SocialStep p tr q := by
  obtain ⟨hsteps, -⟩ := hrun.of_spec putSocialBlob_spec (by simp [hp])
  exact hsteps.mono fun _ _ _ _ _ h => h.2

theorem seenLast_of_steps (hsteps : Prog.Run socialPuts SocialStep p tr q) (hp : p.threads = [])
    : SeenLast userId (p.state.version userId) tr q.state q.memory := by
  refine Prog.Run.memory_induction
    (fun tr table memory => SeenLast userId (p.state.version userId) tr table memory) ?_ ?_ ?_ hsteps
  . exact ⟨rfl, fun i g seen hg => by simp [Prog.Pool.memory, hp] at hg⟩
  . intro tr table memory i put _ h
    exact seenLast_start h
  . intro tr table memory i g fails l table' hmemory hstep h
    exact seenLast_act hmemory hstep h

/--
No put overtakes another one: those that write a blob after a put has looked at its version write a lower
version than the put itself.
-/
def Unraced (userId : String) (tr : List SocialEvent) : Prop :=
  ∀ pre i g fails ver post, tr = pre ++ .act i g fails (.wrote userId ver) :: post →
    ∀ other ∈ (socialCommits userId).since i pre, other < ver

/--
The version of a blob increases with every write, and no put is overwritten by one with a version that is
not higher, exactly when no put overtakes another one.
-/
theorem versions_increase_iff (userId : String)
    (hrun : Prog.Run socialPuts (fun _ _ _ _ _ => True) p tr q) (hp : p.threads = [])
    : (p.state.version userId :: (socialCommits userId).all tr).Pairwise (· < ·) ↔ Unraced userId tr := by
  constructor
  . rintro hsorted pre i g fails ver post rfl other hmem
    rw [all, List.filterMap_append, ← List.cons_append, List.pairwise_append] at hsorted
    refine hsorted.2.2 other (.tail _ (mem_all_of_mem_since hmem)) ver ?_
    simp [socialCommits]
  . intro hunraced
    have hsteps := steps_of_run hrun hp
    clear hrun
    induction hsteps with
    | nil => simp
    | @snoc q r tr ev steps step ih =>
      have ih := ih fun pre i g fails ver post heq =>
        hunraced pre i g fails ver (post ++ [ev]) (by simp [heq])
      rw [all_concat, ← List.cons_append, List.pairwise_append]
      refine ⟨ih, by cases (socialCommits userId).value ev <;> simp, fun earlier hearlier ver hver => ?_⟩
      have hseen : SeenLast userId (p.state.version userId) tr q.state q.memory := seenLast_of_steps steps hp
      cases ev with
      | start i put => simp [socialCommits] at hver
      | act i g fails l =>
        obtain ⟨hstep, hmemory, -⟩ := step.memory_act
        cases l with
        | quiet => simp [socialCommits] at hver
        | read other ver => simp [socialCommits] at hver
        | wrote other ver' =>
          obtain ⟨hother, rfl⟩ : other = userId ∧ ver' = ver := by simpa [socialCommits] using hver
          subst hother
          obtain ⟨huser, ⟨seen, hsome, hnewer⟩, -, -⟩ := hstep
          have hlast := hseen.2 i g seen hmemory huser.symm hsome
          -- what came before the look is not above what was seen, and the rest is below by assumption
          have hbelow : ∀ v ∈ p.state.version other :: (socialCommits other).seen i tr, v ≤ seen := by
            rw [hlast]
            exact fun v hmem => le_getLastD_seen ih hmem
          rcases List.mem_cons.1 hearlier with rfl | hearlier
          . have := hbelow _ (.head _)
            omega
          . rcases mem_seen_or_since i hearlier with hmem | hmem
            . have := hbelow _ (.tail _ hmem)
              omega
            . exact hunraced tr i g fails _ [] rfl earlier hmem

/--
A put that has been answered with success has written its own version, whatever the others do meanwhile, as long as
the account stays.
-/
theorem wrote_of_put {userId blob : String} {ver : Int} {s s' : SocialTable} {tr : List (Bool × SocialLabel)}
    (run : Prog.Amid (fun s s' : SocialTable => (s.lookup userId).isSome → (s'.lookup userId).isSome)
      (putSocialBlob userId ver blob).run s tr (.ok none) s')
    (hrow : (s.lookup userId).isSome) : ∃ fails, (fails, .wrote userId ver) ∈ tr := by
  rcases run with _ | ⟨fails, hmove, run⟩
  rename_i s₁ tr₁
  replace hrow := hmove hrow
  cases fails with
  | true => cases run
  | false =>
    change Prog.Amid _ (ExceptT.run (if ver ≤ s₁.version userId then pure (some (s₁.version userId))
      else do
        updateSocialBlob userId ver blob
        pure none : Social (Option Int))) _ _ _ _ at run
    split at run
    . cases run
    rcases run with _ | ⟨fails, hmove, run⟩
    rename_i s₂ tr₂
    cases fails with
    | true => cases run
    | false =>
      obtain ⟨row, hlookup⟩ := Option.isSome_iff_exists.1 (hmove hrow)
      refine ⟨false, .tail _ ?_⟩
      simp only [hlookup]
      exact .head _

/--
Two devices of one account that look at the version before either of them writes.
-/
def racingDevices : List (Prog.Cmd SocialPut Bool) :=
  [.start { userId := "u", ver := 5, blob := "old" }, .start { userId := "u", ver := 7, blob := "new" },
    .act 0 false, .act 1 false, .act 1 false, .act 0 false]

theorem versions_increase_iff_twoPuts :
    ∃ tr q, Prog.Run socialPuts (fun _ _ _ _ _ => True)
        { state := AList.insert "u" {} ∅, threads := [] } tr q
      ∧ (((0 : Int) :: (socialCommits "u").all tr).Pairwise (· < ·) ↔ Unraced "u" tr) := by
  obtain ⟨tr, q, hrun, -⟩ := Prog.Run.exists_of_exec socialPuts (fun _ _ _ _ _ => true)
    [.start { userId := "u", ver := 5, blob := "old" }, .act 0 false, .act 0 false,
      .start { userId := "u", ver := 7, blob := "new" }, .act 1 false, .act 1 false]
    { state := AList.insert "u" {} ∅, threads := [] } (fun _ _ => true) (by decide)
  have hrun : Prog.Run socialPuts (fun _ _ _ _ _ => True) _ _ _ := hrun.mono fun _ _ _ _ _ _ => trivial
  exact ⟨tr, q, hrun, versions_increase_iff "u" hrun rfl⟩

/--
The higher version is overwritten by the lower one, although its put has succeeded.
-/
theorem not_versions_increase :
    ∃ tr q, Prog.Run socialPuts (fun _ _ _ _ _ => True)
        { state := AList.insert "u" {} ∅, threads := [] } tr q
      ∧ (socialCommits "u").all tr = [7, 5] ∧ q.state.version "u" = 5 := by
  obtain ⟨tr, q, hrun, htest⟩ := Prog.Run.exists_of_exec socialPuts (fun _ _ _ _ _ => true) racingDevices
    { state := AList.insert "u" {} ∅, threads := [] }
    (fun tr q => (socialCommits "u").all tr = [7, 5] && q.state.version "u" = 5) (by decide)
  rw [Bool.and_eq_true] at htest
  exact ⟨tr, q, hrun.mono fun _ _ _ _ _ _ => trivial, of_decide_eq_true htest.1,
    of_decide_eq_true htest.2⟩

end Lqxp
