import Lqxp.Accounts.Transition

/-!
This module contains the proofs that the account services only make the steps that `AccountTransition`
allows, and that those that close the sessions of an account do close them.
-/

namespace Lqxp

namespace AccountSound

variable {g : AccountMemory}

section Eviction

/--
What stays of the memory of a service while it closes the sessions that it has listed.
-/
structure Evicting (sids : List String) (g g' : AccountMemory) : Prop where
  follows : g'.Follows g
  evicted : ∀ sid ∈ sids, sid ∈ g'.evicted

theorem Evicting.cons {sid : String} {sids : List String} {g g' g'' : AccountMemory}
    (h : Evicting [sid] g g') (h' : Evicting sids g' g'') : Evicting (sid :: sids) g g'' where
  follows := ⟨h'.follows.req.trans h.follows.req, h'.follows.listed.trans h.follows.listed,
    h'.follows.rehashed.trans h.follows.rehashed,
    List.Subset.trans h.follows.evicted h'.follows.evicted⟩
  evicted := by
    intro sid' hmem
    rcases List.mem_cons.1 hmem with rfl | hrest
    . exact h'.follows.evicted (h.evicted sid' (List.mem_singleton.2 rfl))
    . exact h'.evicted sid' hrest

theorem handled_atom {sid : Option String} {f : Env → AppState → α × Label × AppState}
    {post : α → AccountMemory → Prop}
    (h : ∀ (e : AccountEnv) s,
      AccountTransition g e s (.handled sid (sid.bind s.app.players.lookup) (f e.toEnv s.app).2.1)
          { s with app := (f e.toEnv s.app).2.2 }
        ∧ post (f e.toEnv s.app).1
          (g.next (.handled sid (sid.bind s.app.players.lookup) (f e.toEnv s.app).2.1)))
    : AccountSound post (Lqxp.handled sid (.atom f)) g := h

theorem handled_bind {sid : String} {f : Env → AppState → α × Label × AppState} {p : α → Proto β}
    {post : β → Memory → Prop} (h : Sound post (.atom f >>= p) g.inner)
    (hvetted : Vetted (fun _ _ => True) (some sid) (.atom f >>= p) g)
    (hfirst : ∀ e s, (f e s).2.2.players.lookup sid = none)
    : AccountSound (fun _ g' => Evicting [sid] g g') (Lqxp.handled (some sid) (.atom f >>= p)) g := by
  rw [Vetted, Lqxp.handled, Prog.zoom_bind] at hvetted
  rw [Lqxp.handled, Prog.zoom_bind]
  refine .bind <| handled_atom fun e s => ?_
  obtain ⟨hstep, hrest⟩ := Prog.Spec.atom_iff.1 (Prog.Spec.bind_iff.1 h) e.toEnv s.app
  obtain ⟨hvets, hvetted⟩ := Prog.Spec.bind_iff.1 hvetted e s
  refine ⟨⟨hstep, rfl, rfl, ?_, hvets⟩, ?_⟩
  . rintro - sid' ⟨⟩
    exact .inr (hfirst e.toEnv s.app)
  . refine Prog.Spec.mono (handled hrest hvetted fun _ sid' hsid => ?_) fun b g' hend => ?_
    . exact List.mem_append_left _ (Option.mem_toList.2 hsid)
    . obtain ⟨-, hreq, hlisted, hrehashed, hsub⟩ := hend
      refine ⟨⟨hreq, hlisted, hrehashed, fun sid' hmem => hsub ?_⟩, fun sid' hmem => hsub ?_⟩
      . exact List.mem_append_right _ hmem
      . exact List.mem_append_left _ hmem

theorem disconnectPlayer {sid : String} (hinner : g.inner = { req := .disconnect sid })
    : AccountSound (fun _ g' => Evicting [sid] g g')
        (Lqxp.handled (some sid) (disconnectPlayer sid)) g := by
  refine handled_bind (hinner ▸ Sound.disconnectPlayer sid) (.disconnectPlayer sid) fun e s => ?_
  cases hplayer : s.players.lookup sid with
  | none => simp [hplayer]
  | some player => simp

theorem closeSessions {payload : Json} {sids : List String} {post : Unit → AccountMemory → Prop}
    (h : ∀ g', Evicting sids g g' → post () g')
    : AccountSound post (closeSessions payload sids) g := by
  induction sids generalizing g with
  | nil => exact .pure (h g ⟨⟨rfl, rfl, rfl, List.Subset.refl _⟩, by simp⟩)
  | cons sid sids ih =>
    refine .bind <| .perform fun e s => ⟨⟨rfl, trivial⟩, ?_⟩
    refine .bind <| Prog.Spec.mono (disconnectPlayer rfl) fun _ g' hevicting => ?_
    refine ih fun g'' hevicting' => h g'' (.cons ⟨?_, hevicting.evicted⟩ hevicting')
    exact ⟨hevicting.follows.req, hevicting.follows.listed, hevicting.follows.rehashed,
      hevicting.follows.evicted⟩

theorem closeListed {userId : String} {payload : Json} {post : Unit → AccountMemory → Prop}
    (h : ∀ g', g'.req = g.req → g'.rehashed = g.rehashed → g'.Evicts userId → post () g')
    : AccountSound post (listSessions userId >>= Lqxp.closeSessions payload) g := by
  refine .bind <| .perform fun e s => ⟨⟨rfl, rfl⟩, ?_⟩
  refine closeSessions fun g' hevicting => h g' hevicting.follows.req hevicting.follows.rehashed ?_
  exact ⟨_, hevicting.follows.listed, hevicting.evicted⟩

theorem evictUser {userId reason : String} {post : Unit → AccountMemory → Prop}
    (h : ∀ g', g'.req = g.req → g'.rehashed = g.rehashed → g'.Evicts userId → post () g')
    : AccountSound post (evictUser userId reason) g := closeListed h

theorem disconnectUserSessions {userId reason : String} {post : Unit → AccountMemory → Prop}
    (h : ∀ g', g'.req = g.req → g'.rehashed = g.rehashed → g'.Evicts userId → post () g')
    : AccountSound post (disconnectUserSessions userId reason) g := closeListed h

end Eviction

end AccountSound

/--
A run for a request that has not listed any sessions yet.
-/
structure Unlisted (req : AccountRequest) (g : AccountMemory) : Prop where
  req : g.req = req
  listed : g.listed = none

namespace ApiKeeps

variable {g : AccountMemory} {req : AccountRequest}

theorem invalidateUserSessions {userId : String} (hg : Unlisted req g)
    : ApiKeeps (invalidateUserSessions userId) g :=
  .statement fun _ _ => ⟨⟨rfl, hg.listed⟩, rfl⟩

theorem createSession {userId : String} : ApiKeeps (createSession userId) g := by
  refine .statement fun e s => ?_
  dsimp only
  split
  . exact ⟨⟨rfl, trivial⟩, rfl⟩
  . exact ⟨⟨rfl, trivial⟩, rfl⟩

theorem deleteOtherRows : ApiKeeps deleteOtherRows g := .statement fun _ _ => ⟨⟨rfl, trivial⟩, rfl⟩

theorem deleteUserAccount {userId : String} (hg : Unlisted req g)
    (huserId : ∀ admin target, req = .deleteUserAccount admin target → userId = target)
    : ApiKeeps (AccountDatabase.deleteUserAccount userId) g := by
  refine .bind (.statement fun _ _ => ⟨⟨rfl, trivial⟩, rfl⟩) fun account => ?_
  split
  . exact .throw_bind _ _
  refine .bind (.invalidateUserSessions hg) fun _ => .bind .deleteOtherRows fun _ => ?_
  refine .bind .deleteOtherRows fun _ => .statement fun _ _ => ⟨⟨rfl, hg.listed, ?_⟩, rfl⟩
  exact fun admin target hreq => huserId admin target (hg.req ▸ hreq)

end ApiKeeps

namespace ApiSound

variable {g : AccountMemory} {post : α → AccountMemory → Prop} {req : AccountRequest} {x : Externals}

section Statements

theorem findUserById {userId : String} {post : Option StoredAccount → AccountMemory → Prop}
    (h : ∀ account, (∀ a, account = some a → a.publicUser.id = userId) → post account g)
    : ApiSound post (findUserById userId) g := by
  refine .statement fun e s => ⟨⟨rfl, trivial⟩, h _ fun a ha => ?_⟩
  obtain ⟨user, huser, rfl⟩ := Option.map_eq_some_iff.1 ha
  exact of_decide_eq_true (Option.filter_eq_some_iff.1 huser).2

theorem findUserByUsername {username : String} {post : Option StoredAccount → AccountMemory → Prop}
    (h : ∀ account found, post account { g with found })
    : ApiSound post (findUserByUsername x username) g := by
  refine .statement fun e s => ?_
  dsimp only
  split
  next account haccount =>
    obtain ⟨user, huser, rfl⟩ := Option.map_eq_some_iff.1 haccount
    obtain ⟨key, hkey⟩ := AssocMap.exists_lookup_of_mem_values (List.mem_of_find?_eq_some huser)
    exact ⟨⟨rfl, key, user, hkey, rfl, rfl⟩, h _ _⟩
  next => exact ⟨⟨rfl, trivial⟩, h none g.found⟩

theorem hashSecret {secret : String} {post : String → AccountMemory → Prop} (h : ∀ hash, post hash g)
    : ApiSound post (hashSecret x secret) g := .lift (.quiet h)

theorem createSession {userId : String} {post : String → AccountMemory → Prop}
    (h : ∀ token, post token g) : ApiSound post (createSession userId) g :=
  ApiKeeps.createSession.sound h

theorem touchSession {token : String} {post : Unit → AccountMemory → Prop} (h : post () g)
    : ApiSound post (touchSession token) g := .statement fun _ _ => ⟨⟨rfl, trivial⟩, h⟩

theorem deleteSession {token : String} {post : Unit → AccountMemory → Prop} (h : post () g)
    : ApiSound post (deleteSession token) g := .statement fun _ _ => ⟨⟨rfl, trivial⟩, h⟩

theorem insertUser {username passwordHash recoveryHash : String}
    {post : Option String → AccountMemory → Prop} (h : ∀ id, post id g)
    : ApiSound post (insertUser username passwordHash recoveryHash) g := by
  refine .lift <| .perform fun e s => ?_
  dsimp only
  split
  . exact ⟨⟨rfl, trivial⟩, h _⟩
  . exact ⟨⟨rfl, trivial⟩, h _⟩

theorem updateUsername {userId username : String} {changes : List Nat}
    {post : Unit → AccountMemory → Prop} (h : post () g)
    : ApiSound post (updateUsername userId username changes) g := by
  refine .statement fun e s => ?_
  split
  . exact ⟨⟨rfl, trivial⟩, trivial⟩
  . exact ⟨⟨rfl, trivial⟩, h⟩

end Statements

theorem authenticate {token : String} {post : Option AuthenticatedUser → AccountMemory → Prop}
    (hg : Unlisted req g) (h : ∀ user g', Unlisted req g' → post user g')
    : ApiSound post (authenticate token) g := by
  have hinner : Sound (fun _ _ => True) (authenticateToken token) g.inner :=
    .authenticateToken (fun _ _ _ _ => trivial) fun _ _ => trivial
  have hidle : Vetted (fun _ _ => True) none (authenticateToken token) g :=
    .idle (.authenticateToken token) fun _ _ _ _ => trivial
  refine .bind <| .lift <| Prog.Spec.mono (AccountSound.handled hinner hidle (by simp))
    fun user g' hend => ?_
  obtain ⟨-, hfollows⟩ := hend
  split
  . exact .throw _
  . exact .pure (h _ _ ⟨hfollows.req.trans hg.req, hfollows.listed.trans hg.listed⟩)

section Database

theorem register {username password : String}
    {post : PublicUser × String × List String → AccountMemory → Prop}
    (h : ∀ result found, post result { g with found })
    : ApiSound post (AccountDatabase.register x username password) g := by
  refine .bind <| .result fun username _ => .bind <| .result fun _ _ => ?_
  refine .bind <| .findUserByUsername fun taken found => ?_
  split
  . exact .throw _
  refine .bind <| .lift <| .quiet fun words => .bind <| .hashSecret fun hash => ?_
  refine .bind <| .hashSecret fun recoveryHash => .bind <| .insertUser fun id => ?_
  split
  . refine .bind <| .findUserById fun account _ => ?_
    split
    . exact .bind <| .createSession fun token => .pure (h _ found)
    . exact .throw _
  . exact .throw _

theorem login {username password : String} {post : PublicUser × String → AccountMemory → Prop}
    (h : ∀ result found, post result { g with found })
    : ApiSound post (AccountDatabase.login x username password) g := by
  refine .bind <| .findUserByUsername fun account found => ?_
  split
  . dsimp only
    split
    . exact .bind (.throw _)
    split
    . exact .bind (.throw _)
    split
    . exact .bind (.throw _)
    exact .bind <| .createSession fun token => .pure (h _ found)
  . exact .throw _

theorem recover {username words newPassword : String} {post : PublicUser × String → AccountMemory → Prop}
    (hg : Unlisted (.recover username words newPassword) g) (hrehashed : g.rehashed = none)
    (h : ∀ result found, post result { g with found, rehashed := some result.1.id })
    : ApiSound post (AccountDatabase.recover x username words newPassword) g := by
  refine .bind <| .result fun _ _ => .bind <| .findUserByUsername fun account found => ?_
  split
  next account =>
    dsimp only
    split
    . exact .bind (.throw _)
    split
    . exact .bind (.throw _)
    refine .bind <| .hashSecret fun hash => .bind <| .statement fun _ _ => ⟨⟨rfl, ?_⟩, ?_⟩
    . exact ⟨⟨_, _, _, hg.req⟩, hrehashed⟩
    have hg' : Unlisted (.recover username words newPassword)
        { g with found, rehashed := some account.user.id } := ⟨hg.req, hg.listed⟩
    refine .bind <| (ApiKeeps.invalidateUserSessions hg').sound fun _ => ?_
    refine .bind <| .createSession fun token => .bind <| .findUserById fun updated hupdated => ?_
    split
    next updated =>
      have hid : updated.publicUser.id = account.user.id := hupdated updated rfl
      exact .pure (hid ▸ h (updated.publicUser, token) found)
    . exact .throw _
  . exact .throw _

theorem deleteAccount {token password : String} {post : Unit → AccountMemory → Prop}
    (hg : Unlisted (.deleteAccount token password) g) (h : ∀ g', Unlisted (.deleteAccount token password) g' → post () g')
    : ApiSound post (AccountDatabase.deleteAccount x token password) g := by
  refine .bind <| .authenticate hg fun user g' hg' => ?_
  split
  . refine .bind <| .findUserById fun stored _ => ?_
    split
    . split
      . exact .throw _
      . exact (ApiKeeps.deleteUserAccount hg' (by simp)).sound fun _ => h g' hg'
    . exact .throw _
  . exact .throw _

theorem me {token : String} {post : Option (PublicUser × String) → AccountMemory → Prop}
    (hg : Unlisted req g) (h : ∀ result g', Unlisted req g' → post result g')
    : ApiSound post (AccountDatabase.me token) g := by
  refine .bind <| .authenticate hg fun user g' hg' => ?_
  split
  . exact .bind <| .touchSession <| .pure (h _ g' hg')
  . exact .pure (h _ g' hg')

theorem changeUsername {userId username : String} {post : PublicUser → AccountMemory → Prop}
    (h : ∀ user found, post user { g with found })
    : ApiSound post (AccountDatabase.changeUsername x userId username) g := by
  refine .bind <| .result fun username _ => .bind <| .findUserById fun account _ => ?_
  split
  . split
    . exact .pure (h _ g.found)
    refine .bind <| .lift <| .quiet fun now => ?_
    dsimp only
    split
    . exact .bind (.throw _)
    refine .bind <| .findUserByUsername fun existing found => ?_
    split
    . exact .throw _
    refine .bind <| .updateUsername <| .bind <| .findUserById fun updated _ => ?_
    split
    . exact .pure (h _ found)
    . exact .throw _
  . exact .throw _

theorem purgeAll {filter : PurgeFilter} {adminIds : List String} {post : Nat → AccountMemory → Prop}
    (hg : Unlisted req g) (hreq : ∀ admin target, req ≠ .deleteUserAccount admin target)
    (h : ∀ count, post count g) (candidates : List (String × String)) (count : Nat)
    : ApiSound post (AccountDatabase.purgeAll filter adminIds candidates count) g := by
  induction candidates generalizing count with
  | nil => exact .pure (h count)
  | cons candidate candidates ih =>
    unfold AccountDatabase.purgeAll
    split
    . have hdelete : ApiKeeps (AccountDatabase.deleteUserAccount candidate.1) g :=
        .deleteUserAccount hg fun admin target heq => absurd heq (hreq admin target)
      refine .bind <| hdelete.attempt fun deleted => ?_
      split
      . exact ih (count + 1)
      . exact ih count
    . exact ih count

theorem publicUserById {userId : String} {post : Option PublicUser → AccountMemory → Prop}
    (h : ∀ user, post user g) : ApiSound post (AccountDatabase.publicUserById userId) g := by
  unfold AccountDatabase.publicUserById
  dsimp only
  split
  . exact .pure (h none)
  . exact .bind <| .findUserById fun account _ => .pure (h _)

end Database

theorem confirmedUser {userId : String} {post : PublicUser → AccountMemory → Prop}
    (h : ∀ user, post user g) : ApiSound post (Admin.confirmedUser userId) g := by
  refine .bind <| .publicUserById fun user => ?_
  split
  . exact .pure (h _)
  . exact .throw _

theorem announceRenamedAll {rooms : List String} {post : Unit → AccountMemory → Prop}
    (h : ∀ g', g'.Follows g → post () g')
    : ApiSound post (ExceptT.lift (Auth.announceRenamedAll rooms)) g := by
  refine .lift ?_
  induction rooms generalizing g with
  | nil => exact h g ⟨rfl, rfl, rfl, List.Subset.refl _⟩
  | cons roomId rooms ih =>
    have hinner : Sound (fun _ _ => True) (do
        let roster ← Auth.renamedRoster roomId
        broadcastToRoom roomId <| message 3 <|
          [("ok", .bool true), ("system", .bool true), ("gameId", .str roomId)] ++ roster) g.inner :=
      .bind <| .look fun _ => .broadcastToRoom trivial
    refine .bind <| Prog.Spec.mono (AccountSound.handled hinner (.bind <| .idle (.look _) fun _ _ _ _ =>
      .idle (.broadcastToRoom _ _) fun _ _ _ _ => trivial) (by simp)) fun _ g' hend => ?_
    refine ih fun g'' hfollows => h g'' ⟨?_, ?_, ?_, ?_⟩
    . exact hfollows.req.trans hend.2.req
    . exact hfollows.listed.trans hend.2.listed
    . exact hfollows.rehashed.trans hend.2.rehashed
    . exact List.Subset.trans hend.2.evicted hfollows.evicted

end ApiSound

end Lqxp
