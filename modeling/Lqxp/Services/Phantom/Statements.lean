import Lqxp.Services.Phantom.Prekeys
import Lqxp.Services.Phantom.Tags
import Lqxp.Prog.Trace

/-!
This module contains that an update of blocks whose statements are steps of a server, and with nobody else around, is
the update of blocks on the tables alone.
-/

namespace Lqxp

namespace Tabled

variable {α β : Type} {c : Crypto} {userId ownerFp : String}

def result : ApiResult α → PhantomTables → EStateM.Result ApiError PhantomTables α
  | .ok a, s => .ok a s
  | .error err, s => .error err s

/--
The answer and the tables of a call, with the faults that are left for later ones.
-/
def leaving (faults : List Bool) : EStateM.Result ApiError PhantomTables α → EStateM.Result ApiError PhantomTables α
  | .ok a s => .ok a { s with faults }
  | .error err s => .error err { s with faults }

/--
A call makes one statement on the tables.
-/
def OneStatement (query : Tabled α) : Prop :=
  ∀ (s : PhantomTables) fault faults,
    query { s with faults := fault :: faults } = leaving faults (query { s with faults := [fault] })

theorem oneStatement_tableStatement {query : PhantomTables → α × PhantomTables}
    (h : ∀ s faults, query { s with faults } = ((query s).1, { (query s).2 with faults }))
    : OneStatement (tableStatement query) := by
  intro s fault faults
  cases fault with
  | true => rfl
  | false =>
    simp only [tableStatement, List.head?_cons, List.tail_cons, Option.some.injEq, Bool.false_eq_true, if_false]
    rw [h s faults, h s []]
    rfl

theorem oneStatement_ownerFingerprint : OneStatement (ownerFingerprint c userId) := by
  intro s fault faults
  have hstatement : OneStatement (getPrekeyByUserId userId) := oneStatement_tableStatement fun _ _ => rfl
  rw [ownerFingerprint, bind_run, bind_run, hstatement]
  cases fault with
  | true => rfl
  | false =>
    simp only [getPrekeyByUserId, tableStatement, List.head?_cons, List.tail_cons, Option.some.injEq,
      Bool.false_eq_true, if_false, leaving]
    cases s.prekeys.lookup userId with
    | none => rfl
    | some bundle =>
      dsimp only
      cases fingerprintOfMlkemHex c bundle.mlkem768Pk with
      | error panic => rfl
      | ok decoded => cases decoded <;> rfl

end Tabled

open Tabled

namespace Phantom

variable {α β : Type} {c : Crypto} {userId ownerFp tag : String}

/--
With nobody else around, a handler does what a call on the tables does whose statements fail as its steps do.
-/
def Mirrors (p : NodeApi α) (query : Tabled α) : Prop :=
  ∀ s tr r s' faults, Prog.Trace p.run s tr r s' →
    query { s.tables with faults := tr.map (·.1.dbFails) ++ faults } = result r { s'.tables with faults }
      ∧ s' = { s with tables := s'.tables }

namespace Mirrors

variable {p : NodeApi α} {f : α → NodeApi β} {query : Tabled α} {rest : α → Tabled β}

theorem pure (a : α) : Mirrors (pure a) (pure a) := by
  intro s tr r s' faults run
  obtain ⟨rfl, rfl, rfl⟩ := Prog.trace_done_iff.1 run
  exact ⟨rfl, rfl⟩

theorem throw (err : ApiError) : Mirrors (throw err : NodeApi α) (throw err) := by
  intro s tr r s' faults run
  obtain ⟨rfl, rfl, rfl⟩ := Prog.trace_done_iff.1 run
  exact ⟨rfl, rfl⟩

theorem bind (hp : Mirrors p query) (hf : ∀ a, Mirrors (f a) (rest a)) : Mirrors (p >>= f) (query >>= rest) := by
  intro s tr r s' faults run
  obtain ⟨r₁, s₁, tr₁, tr₂, run₁, run₂, rfl⟩ := Prog.trace_bind_iff.1 run
  obtain ⟨hquery, hsame⟩ := hp _ _ _ _ (tr₂.map (·.1.dbFails) ++ faults) run₁
  rw [List.map_append, List.append_assoc, bind_run, hquery]
  cases r₁ with
  | ok a =>
    obtain ⟨hrest, hsame'⟩ := hf a _ _ _ _ faults run₂
    exact ⟨hrest, by rw [hsame', hsame]⟩
  | error err =>
    obtain ⟨rfl, rfl, rfl⟩ := Prog.trace_done_iff.1 run₂
    exact ⟨rfl, hsame⟩

theorem onTables (hquery : OneStatement query) : Mirrors (onTables query) query := by
  intro s tr r s' faults run
  obtain ⟨e, rfl, rfl, rfl⟩ := Prog.trace_atom_iff.1 run
  have hone := hquery s.tables e.dbFails faults
  simp only [List.map_cons, List.map_nil, List.cons_append, List.nil_append]
  rw [hone]
  cases query { s.tables with faults := [e.dbFails] } <;> exact ⟨rfl, rfl⟩

end Mirrors

theorem addBlockTag_eq (userId tag : String)
    : (do let _ ← addBlockTag userId tag : Tabled Unit)
        = countBlockTags userId >>= fun count =>
          if maxBlocksPerAccount ≤ count then pure () else tableStatement fun s => ((), s.insertOrIgnore userId tag) := by
  funext s
  rw [bind_run, addBlockTag, bind_run, bind_run]
  cases countBlockTags userId s with
  | error err s₁ => rfl
  | ok count s₁ =>
    dsimp only
    by_cases hquota : maxBlocksPerAccount ≤ count
    . rw [if_pos hquota, if_pos hquota]
      rfl
    . rw [if_neg hquota, if_neg hquota, bind_run]
      cases tableStatement (fun s => ((), s.insertOrIgnore userId tag)) s₁ <;> rfl

theorem mirrors_addTag : Mirrors (addTag userId tag) (do let _ ← addBlockTag userId tag) := by
  rw [addBlockTag_eq]
  refine .bind (.onTables (oneStatement_tableStatement fun _ _ => rfl)) fun count => ?_
  split
  . exact .pure ()
  . refine .onTables (oneStatement_tableStatement fun s faults => ?_)
    simp only [PhantomTables.insertOrIgnore]
    cases s.blocks.lookup tag <;> rfl

theorem mirrors_removeBlockTag : Mirrors (onTables (removeBlockTag userId tag)) (removeBlockTag userId tag) := by
  refine .onTables (oneStatement_tableStatement fun s faults => ?_)
  simp only [PhantomTables.deleteTag]
  split <;> rfl

theorem mirrors_addHints (hints : List String)
    : Mirrors (addHints c userId ownerFp hints) (hints.forM (addBlock c userId ownerFp)) := by
  induction hints with
  | nil => exact .pure ()
  | cons hint hints ih =>
    show Mirrors _ (addBlock c userId ownerFp hint >>= fun _ => hints.forM (addBlock c userId ownerFp))
    unfold addHints addBlock
    split
    . exact .throw _
    . exact .bind mirrors_addTag fun _ => ih

theorem mirrors_removeHints (hints : List String)
    : Mirrors (removeHints c userId ownerFp hints) (hints.forM (removeBlock c userId ownerFp)) := by
  induction hints with
  | nil => exact .pure ()
  | cons hint hints ih =>
    show Mirrors _ (removeBlock c userId ownerFp hint >>= fun _ => hints.forM (removeBlock c userId ownerFp))
    unfold removeHints removeBlock
    split
    . exact .throw _
    . exact .bind mirrors_removeBlockTag fun _ => ih

theorem mirrors_updateBlocks (add remove : List String)
    : Mirrors (updateBlocks c userId add remove) (Lqxp.updateBlocks c userId add remove) := by
  refine .bind (.onTables oneStatement_ownerFingerprint) fun ownerFp => ?_
  refine .bind (mirrors_addHints add) fun _ => .bind (mirrors_removeHints remove) fun _ => ?_
  exact .onTables (oneStatement_tableStatement fun _ _ => rfl)

end Phantom

end Lqxp
