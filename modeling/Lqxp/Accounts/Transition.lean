import Lqxp.Accounts.Senders

/-!
This module contains what a single step of any service can do, and the rules to prove it of the services.
-/

namespace Lqxp

def AccountRequest.isWebsocket : AccountRequest → Bool
  | .websocket _ => true
  | _ => false

namespace AccountMemory

/--
Which steps on the account tables a run may make, and when.
-/
def Permits (g : AccountMemory) : AccountLabel → Prop
  | .disabled userId value =>
    (∃ admin, g.req = .setUserDisabled admin userId value) ∧ g.listed = none
  | .banned userId value => (∃ admin, g.req = .setUserBanned admin userId value) ∧ g.listed = none
  | .rehashed .. => (∃ username words password, g.req = .recover username words password)
      ∧ g.rehashed = none
  | .revoked _ => g.listed = none
  | .deleted userId =>
    g.listed = none ∧ ∀ admin target, g.req = .deleteUserAccount admin target → userId = target
  | _ => True

/--
All sessions that an account had at some moment have been taken away since.
-/
def Evicts (g : AccountMemory) (userId : String) : Prop :=
  ∃ sids, g.listed = some (userId, sids) ∧ ∀ sid ∈ sids, sid ∈ g.evicted

/--
What a handler that runs inside a service leaves of its memory.
-/
structure Follows (g' g : AccountMemory) : Prop where
  req : g'.req = g.req
  listed : g'.listed = g.listed
  rehashed : g'.rehashed = g.rehashed
  evicted : g.evicted ⊆ g'.evicted

/--
What a run has done by the time it succeeds: those that take an account's access away have closed its
sessions.
-/
def Finished (g : AccountMemory) : Prop :=
  match g.req with
  | .setUserDisabled _ userId value | .setUserBanned _ userId value => value = true → g.Evicts userId
  | .deleteUserAccount _ userId => g.Evicts userId
  | .recover .. => ∃ userId, g.rehashed = some userId ∧ g.Evicts userId
  | _ => True

end AccountMemory

/--
What a step of a service can do, by its label. Every step of every service is one of these.
-/
def AccountTransition (g : AccountMemory) (e : AccountEnv) (s : AccountState) (l : AccountLabel)
    (s' : AccountState) : Prop :=
  match l with
  | .handled sid sender label =>
    Transition g.inner e.toEnv s.app label s'.app ∧ s' = { s with app := s'.app }
      ∧ sender = sid.bind s.app.players.lookup
      ∧ (g.req.isWebsocket = false → ∀ sid', sid = some sid' →
          sid' ∈ g.evicted ∨ s'.app.players.lookup sid' = none)
      ∧ g.Vets e.toEnv s.app label
  | .found userId passwordHash =>
    s' = s ∧ ∃ key user, s.app.accounts.users.lookup key = some user ∧ user.id = userId
      ∧ passwordHash = (s.account user).secrets.passwordHash
  | .listed userId sids =>
    s' = s ∧ sids = (s.app.players.values.filter (·.userId = userId)).map (·.id)
  | l => s' = l.apply s ∧ g.Permits l

/--
Run with the memory `g`, a piece of a service only makes allowed steps and ends as `post` says.
-/
abbrev AccountSound (post : α → AccountMemory → Prop) (p : Accounts α) (g : AccountMemory) : Prop :=
  Prog.Spec AccountMemory.next AccountTransition post p g

namespace AccountSound

variable {g : AccountMemory}

theorem pure {post : α → AccountMemory → Prop} {a : α} (h : post a g)
    : AccountSound post (pure a) g := h

theorem bind {post : β → AccountMemory → Prop} {p : Accounts α} {f : α → Accounts β}
    (h : AccountSound (fun a g' => AccountSound post (f a) g') p g) : AccountSound post (p >>= f) g :=
  Prog.Spec.bind_iff.2 h

theorem perform {post : α → AccountMemory → Prop} {f : AccountEnv → AccountState → α × AccountLabel}
    (h : ∀ e s, AccountTransition g e s (f e s).2 ((f e s).2.apply s)
      ∧ post (f e s).1 (g.next (f e s).2))
    : AccountSound post (perform f) g := Prog.Spec.atom_iff.2 h

theorem quiet {post : α → AccountMemory → Prop} {f : AccountEnv → AccountState → α}
    (h : ∀ a, post a g) : AccountSound post (Lqxp.perform fun e s => (f e s, .quiet)) g :=
  .perform fun e s => ⟨⟨rfl, trivial⟩, h (f e s)⟩

theorem handled {post : α → Memory → Prop} {sid : Option String} {p : Proto α}
    (h : Sound post p g.inner)
    (hvetted : Vetted (fun _ _ => True) sid p g)
    (hevicted : g.req.isWebsocket = false → ∀ sid', sid = some sid' → sid' ∈ g.evicted)
    : AccountSound (fun a g' => post a g'.inner ∧ g'.Follows g) (Lqxp.handled sid p) g := by
  have hzoom : AccountSound
      (fun a (g' : AccountMemory) => ∃ inner : Memory, (inner = g'.inner ∧ g'.Follows g)
        ∧ post a inner) (Lqxp.handled sid p) g := by
    refine Prog.Spec.imp (Prog.Spec.zoom (handledView sid)
      (fun (g' : AccountMemory) inner => inner = g'.inner ∧ g'.Follows g) ?_ ?_ h
      ⟨rfl, rfl, rfl, rfl, List.Subset.refl _⟩) hvetted
    . rintro g' inner s l ⟨rfl, hfollows⟩
      refine ⟨rfl, hfollows.req, hfollows.listed, hfollows.rehashed, fun sid' hmem => ?_⟩
      exact List.mem_append_right _ (hfollows.evicted hmem)
    . rintro g' inner e s l s' ⟨rfl, hfollows⟩ hok hvets
      refine ⟨hok, rfl, rfl, fun hwebsocket sid' hsid => .inl (hfollows.evicted ?_), hvets⟩
      exact hevicted (hfollows.req ▸ hwebsocket) sid' hsid
  refine Prog.Spec.mono hzoom fun a g' hend => ?_
  obtain ⟨inner, ⟨rfl, hrest⟩, hpost⟩ := hend
  exact ⟨hpost, hrest⟩

end AccountSound

/--
What is asked of a result when there is one.
-/
def OnOk (post : α → AccountMemory → Prop) : ApiResult α → AccountMemory → Prop
  | .ok a, g => post a g
  | .error _, _ => True

/--
Run with the memory `g`, a piece that may fail only makes allowed steps and, if it does not fail, ends as
`post` says.
-/
abbrev ApiSound (post : α → AccountMemory → Prop) (p : Api α) (g : AccountMemory) : Prop :=
  AccountSound (OnOk post) p.run g

namespace ApiSound

variable {g : AccountMemory} {post : α → AccountMemory → Prop}

theorem pure {a : α} (h : post a g) : ApiSound post (pure a) g := h

theorem throw (err : ApiError) : ApiSound post (throw err) g := trivial

theorem result {r : ApiResult α} (h : ∀ a, r = .ok a → post a g)
    : ApiSound post (ExceptT.mk (Pure.pure r)) g := by
  cases r with
  | ok a => exact h a rfl
  | error err => trivial

theorem bind {p : Api β} {f : β → Api α} (h : ApiSound (fun b g' => ApiSound post (f b) g') p g)
    : ApiSound post (p >>= f) g := by
  refine AccountSound.bind (Prog.Spec.mono h fun r g' hr => ?_)
  cases r with
  | ok b => exact hr
  | error err => trivial

theorem lift {p : Accounts α} (h : AccountSound post p g) : ApiSound post (ExceptT.lift p) g :=
  AccountSound.bind (Prog.Spec.mono h fun _ _ ha => ha)

theorem attempt {p : Api β} {post : ApiResult β → AccountMemory → Prop}
    (h : AccountSound post p.run g) : ApiSound post (attempt p) g := .lift h

theorem statement {f : AccountEnv → AccountState → ApiResult α × AccountLabel}
    (h : ∀ e s, AccountTransition g e s (f e s).2 ((f e s).2.apply s)
      ∧ OnOk post (f e s).1 (g.next (f e s).2))
    : ApiSound post (statement f) g := by
  refine AccountSound.perform fun e s => ?_
  split
  . exact ⟨⟨rfl, trivial⟩, trivial⟩
  . exact h e s

theorem query {f : AccountEnv → AccountState → α} (h : ∀ a, post a g)
    : ApiSound post (Lqxp.statement fun e s => (.ok (f e s), .quiet)) g :=
  .statement fun e s => ⟨⟨rfl, trivial⟩, h (f e s)⟩

end ApiSound

/--
Whatever it results in, a piece that may fail only makes allowed steps and leaves the memory as it is.
-/
abbrev ApiKeeps (p : Api α) (g : AccountMemory) : Prop := AccountSound (fun _ g' => g' = g) p.run g

namespace ApiKeeps

variable {g : AccountMemory}

theorem throw_bind (err : ApiError) (f : β → Api α) : ApiKeeps (throw err >>= f) g := rfl

theorem bind {p : Api β} {f : β → Api α} (hp : ApiKeeps p g) (hf : ∀ b, ApiKeeps (f b) g)
    : ApiKeeps (p >>= f) g := by
  refine AccountSound.bind (Prog.Spec.mono hp fun r g' hg' => ?_)
  subst hg'
  cases r with
  | ok b => exact hf b
  | error err => rfl

theorem statement {f : AccountEnv → AccountState → ApiResult α × AccountLabel}
    (h : ∀ e s, AccountTransition g e s (f e s).2 ((f e s).2.apply s) ∧ g.next (f e s).2 = g)
    : ApiKeeps (statement f) g := by
  refine AccountSound.perform fun e s => ?_
  split
  . exact ⟨⟨rfl, trivial⟩, rfl⟩
  . exact h e s

theorem sound {p : Api α} {post : α → AccountMemory → Prop} (hp : ApiKeeps p g) (h : ∀ a, post a g)
    : ApiSound post p g := by
  refine Prog.Spec.mono hp fun r g' hg' => ?_
  subst hg'
  cases r with
  | ok a => exact h a
  | error err => trivial

theorem attempt {p : Api α} {post : ApiResult α → AccountMemory → Prop} (hp : ApiKeeps p g)
    (h : ∀ r, post r g) : ApiSound post (attempt p) g :=
  .attempt <| Prog.Spec.mono hp fun r _ hg' => hg' ▸ h r

end ApiKeeps

end Lqxp
