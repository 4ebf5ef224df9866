import Lqxp.Web.Repository

/-!
This module contains the steps of one pass of the preparation, and of the recovery after it.
-/

namespace Lqxp.Web

/--
A command that has run and ended with success, or no command at all.
-/
def WebStep.Succeeds : WebStep → Prop
  | .command _ answer => ∃ output, answer = .ok output ∧ output.success
  | _ => True

variable {ω : Type} {host : Host ω}

section Pieces

variable {root : String} {checkout : AbsolutePath}

/--
The steps that a pass may take.
-/
def WebStep.Inner (checkout : AbsolutePath) : WebStep → Prop
  | .command _ _ => True
  | .createDirAll _ => True
  | .removeDirAll path => path = checkout ++ ["node_modules"]
  | .removeFile path => path = checkout ++ ["node_modules"]
  | .entered => False
  | .returned _ => False

theorem takes_act_command (request : CommandRequest)
    : Journal.Takes (WebStep.move host)
        (fun _ steps r => ∃ answer, steps = [.command request answer] ∧ r = .ok answer)
        (Journal.act (host.run request) (.command request) : Preparing ω (Except IoError CommandOutput)) := by
  refine (Journal.Takes.act fun w => rfl).mono fun w steps r h => ?_
  exact ⟨_, h⟩

theorem takes_runCommand (request : CommandRequest) (stage : Stage) (failureKind : WebFailureKind)
    : Journal.Takes (WebStep.move host)
        (fun _ steps r => ∃ answer, steps = [.command request answer]
          ∧ ∀ output, r = .ok output → answer = .ok output ∧ output.success)
        (runCommand host request stage failureKind) := by
  refine (Journal.Takes.bind (takes_act_command request) fun answer =>
    (?_ : Journal.Takes (WebStep.move host)
      (fun _ steps r => steps = [] ∧ ∀ output, r = .ok output → answer = .ok output ∧ output.success) _)).mono ?_
  . cases answer with
    | error err =>
      refine (Journal.Takes.throw _).mono fun w steps r ⟨hsteps, hr⟩ => ⟨hsteps, fun output h => ?_⟩
      rw [hr] at h
      contradiction
    | ok output =>
      simp only [mapErr, pure_bind]
      split
      next hsuccess =>
        refine (Journal.Takes.pure _).mono fun w steps r ⟨hsteps, hr⟩ => ⟨hsteps, fun output h => ?_⟩
        rw [hr] at h
        cases h
        exact ⟨rfl, hsuccess⟩
      next =>
        refine (Journal.Takes.throw _).mono fun w steps r ⟨hsteps, hr⟩ => ⟨hsteps, fun output h => ?_⟩
        rw [hr] at h
        contradiction
  . rintro w steps r (⟨err, ⟨answer, -, hanswer⟩, -⟩ | ⟨answer, before, after, rfl, ⟨answer', rfl, hanswer⟩, rfl, hr⟩)
    . contradiction
    . cases hanswer
      exact ⟨answer, by simp, hr⟩

/--
A computation of a pass: it takes only steps that a pass may take, and succeeds only if all its commands do.
-/
abbrev InPass {α : Type} (host : Host ω) (checkout : AbsolutePath) (x : Preparing ω α) : Prop :=
  Journal.Careful (WebStep.move host) (WebStep.Inner checkout) WebStep.Succeeds x

namespace InPass

variable {α β : Type}

theorem pure (a : α) : InPass host checkout (Pure.pure a) := by
  refine (Journal.Takes.pure a).mono fun w steps r ⟨hsteps, _⟩ => ?_
  simp [hsteps]

theorem throw (err : WebError) : InPass host checkout (throw err : Preparing ω α) := by
  refine (Journal.Takes.throw err).mono fun w steps r ⟨hsteps, _⟩ => ?_
  simp [hsteps]

theorem look (view : ω → α) : InPass host checkout (Journal.look view) := by
  refine (Journal.Takes.look view).mono fun w steps r ⟨hsteps, _⟩ => ?_
  simp [hsteps]

theorem mapErr {ε : Type} (f : ε → WebError) (answer : Except ε α) : InPass host checkout (mapErr f answer) := by
  cases answer with
  | ok a => exact pure a
  | error err => exact throw (f err)

theorem runCommand (request : CommandRequest) (stage : Stage) (failureKind : WebFailureKind)
    : InPass host checkout (runCommand host request stage failureKind) := by
  refine (takes_runCommand request stage failureKind).mono fun w steps r ⟨answer, hsteps, hok⟩ => ?_
  simp only [hsteps, List.forall_mem_singleton]
  exact ⟨trivial, fun output h => ⟨output, hok output h⟩⟩

theorem git (root : String) (args : List String) (stage : Stage) (failureKind : WebFailureKind)
    : InPass host checkout (git host root checkout args stage failureKind) :=
  runCommand _ stage failureKind

theorem act {effect : ω → Except IoError Unit × ω} {step : WebStep} (hmove : ∀ w, step.move host w = (effect w).2)
    (hinner : step.Inner checkout) (hsucceeds : step.Succeeds)
    : InPass host checkout (Journal.act effect fun _ => step : Preparing ω (Except IoError Unit)) := by
  refine (Journal.Takes.act hmove).mono fun w steps r ⟨hsteps, _⟩ => ?_
  simp only [hsteps, List.forall_mem_singleton]
  exact ⟨hinner, fun _ _ => hsucceeds⟩

theorem removeDependencyTree
    : InPass host checkout (removeDependencyTree host (checkout ++ ["node_modules"])) := by
  refine Journal.Careful.bind (look _) fun fileType => ?_
  cases fileType with
  | error err =>
    simp only
    split
    . exact pure ()
    . exact throw _
  | ok fileType =>
    simp only
    split
    . exact Journal.Careful.bind (act (fun _ => rfl) rfl trivial) (mapErr _)
    . exact Journal.Careful.bind (act (fun _ => rfl) rfl trivial) (mapErr _)

theorem discard {x : Preparing ω α} {y : Preparing ω β} (hx : InPass host checkout x)
    (hy : InPass host checkout y) : InPass host checkout (x >>= fun _ => y) :=
  Journal.Careful.bind hx fun _ => hy

end InPass

end Pieces

section Pass

variable {config : Config} {root : String} {checkout : AbsolutePath} {mode : WebRevision}

theorem InPass.openCheckout : InPass host checkout (openCheckout host config root checkout) := by
  refine Journal.Careful.bind (look _) fun exists' => ?_
  split
  . exact discard (git root _ _ _) (pure ())
  . split
    . exact Journal.Careful.bind (act (fun _ => rfl) trivial trivial) fun answer =>
        Journal.Careful.bind (mapErr _ answer) fun _ => discard (runCommand _ _ _) (pure ())
    . exact discard (runCommand _ _ _) (pure ())

theorem InPass.fetchRemote : InPass host checkout (fetchRemote host config root checkout) :=
  discard (git root _ _ _) (discard (git root _ _ _) (pure ()))

theorem InPass.readyRevision : InPass host checkout (readyRevision host root checkout mode) := by
  cases mode with
  | fresh => exact git root _ _ _
  | tag tag => exact git root _ _ _

theorem InPass.nonEmptyRevision (output : CommandOutput) : InPass host checkout (nonEmptyRevision output) := by
  unfold Lqxp.Web.nonEmptyRevision
  dsimp only
  split
  . exact throw _
  . exact pure _

theorem InPass.buildRevision (revision : String) : InPass host checkout (buildRevision host root checkout revision) :=
  discard (git root _ _ _) <| discard (git root _ _ _) <| discard (git root _ _ _) <|
    discard removeDependencyTree <| discard (runCommand _ _ _) <| discard (runCommand _ _ _) (pure ())

theorem InPass.prepareOnce : InPass host checkout (prepareOnce host config root checkout mode) :=
  discard openCheckout <| discard fetchRemote <| discard readyRevision <|
    Journal.Careful.bind (git root _ _ _) fun output => Journal.Careful.bind (nonEmptyRevision output)
      fun revision => discard (buildRevision revision) (pure revision)

/--
What a pass returns is what the resolving command has printed.
-/
def Resolved (root : String) (checkout : AbsolutePath) (mode : WebRevision) (revision : String)
    (steps : List WebStep) : Prop :=
  revision ≠ ""
    ∧ ∃ output, .command (gitRequest root checkout (revParseArgs mode)) (.ok output) ∈ steps
        ∧ revision = Text.trim output.stdout

theorem yields_nonEmptyRevision (output : CommandOutput)
    : Journal.Yields (WebStep.move host) (fun revision _ => revision ≠ "" ∧ revision = Text.trim output.stdout)
        (nonEmptyRevision output) := by
  unfold nonEmptyRevision
  dsimp only
  split
  . exact .throw _
  next hnonempty => exact .pure ⟨hnonempty, rfl⟩

theorem yields_prepareOnce
    : Journal.Yields (WebStep.move host) (Resolved root checkout mode)
        (prepareOnce host config root checkout mode) := by
  have happend (revision : String) (before steps : List WebStep) (h : Resolved root checkout mode revision steps)
      : Resolved root checkout mode revision (before ++ steps) :=
    ⟨h.1, h.2.imp fun output houtput => ⟨List.mem_append_right _ houtput.1, houtput.2⟩⟩
  refine .after InPass.openCheckout (fun _ => .after InPass.fetchRemote (fun _ =>
    .after InPass.readyRevision (fun _ => ?_) happend) happend) happend
  refine .bind (E := fun output steps =>
    .command (gitRequest root checkout (revParseArgs mode)) (.ok output) ∈ steps) ?_ fun output => ?_
  . refine (takes_runCommand _ _ _).mono fun w steps r ⟨answer, hsteps, hok⟩ output houtput => ?_
    rw [hsteps, (hok output houtput).1]
    exact List.mem_singleton_self _
  . refine .bind (yields_nonEmptyRevision output) fun revision => ?_
    have htail : Journal.Yields (WebStep.move host) (fun answer _ => answer = revision) (do
        buildRevision host root checkout revision
        return revision) :=
      .after (InPass.buildRevision revision) (fun _ => .pure rfl) fun _ _ _ h => h
    refine htail.mono fun answer steps hanswer before hrevision before' houtput => ?_
    rw [hanswer]
    exact ⟨hrevision.1, output, List.mem_append_left _ houtput, hrevision.2⟩

end Pass

section Recovery

variable {config : Config} {root : String} {checkout : AbsolutePath} {mode : WebRevision}

/--
The steps of one pass, between its entry and its return.
-/
structure PassRun (root : String) (checkout : AbsolutePath) (mode : WebRevision) (inner : List WebStep)
    (answer : Except WebError String) : Prop where
  allowed : ∀ step ∈ inner, step.Inner checkout
  succeeds (revision : String) : answer = .ok revision → ∀ step ∈ inner, step.Succeeds
  resolved (revision : String) : answer = .ok revision → Resolved root checkout mode revision inner

theorem takes_pass
    : Journal.Takes (WebStep.move host)
        (fun _ steps answer => ∃ inner,
          steps = .entered :: inner ++ [.returned answer] ∧ PassRun root checkout mode inner answer)
        (pass host config root checkout mode) := by
  refine Journal.Takes.enclosed ((InPass.prepareOnce.and yields_prepareOnce).mono ?_) (fun _ => rfl) (fun _ _ => rfl)
  rintro w inner answer ⟨⟨hinner, hsucceeds⟩, hresolved⟩
  exact ⟨hinner, hsucceeds, hresolved⟩

/--
At most one step, which removes the checkout.
-/
def Removal (checkout : AbsolutePath) (steps : List WebStep) : Prop :=
  steps = [] ∨ steps = [.removeDirAll checkout] ∨ steps = [.removeFile checkout]

theorem takes_removeCheckout
    : Journal.Takes (WebStep.move host) (fun _ steps _ => Removal checkout steps) (removeCheckout host checkout) := by
  have hthrow (err : WebError) : Journal.Takes (WebStep.move host) (fun _ steps _ => Removal checkout steps)
      (throw err : Preparing ω Unit) :=
    (Journal.Takes.throw err).mono fun _ _ _ h => .inl h.1
  have hmapErr (f : IoError → WebError) (answer : Except IoError Unit) : Journal.Takes (WebStep.move host)
      (fun _ steps _ => steps = []) (mapErr f answer) := by
    cases answer with
    | ok u => exact (Journal.Takes.pure u).mono fun _ _ _ h => h.1
    | error err => exact (Journal.Takes.throw _).mono fun _ _ _ h => h.1
  have hremove {effect : ω → Except IoError Unit × ω} {step : WebStep}
      (hmove : ∀ w, step.move host w = (effect w).2) (hstep : Removal checkout [step]) (f : IoError → WebError)
      : Journal.Takes (WebStep.move host) (fun _ steps _ => Removal checkout steps)
          (Journal.act effect (fun _ => step) >>= mapErr f) := by
    refine (Journal.Takes.bind (Journal.Takes.act hmove) (hmapErr f)).mono ?_
    rintro w steps r (⟨err, ⟨rfl, -⟩, -⟩ | ⟨answer, before, after, rfl, ⟨rfl, -⟩, rfl⟩)
    . exact hstep
    . exact hstep
  refine (Journal.Takes.bind (Journal.Takes.look _) fun fileType =>
    (?_ : Journal.Takes (WebStep.move host) (fun _ steps _ => Removal checkout steps) _)).mono ?_
  . cases fileType with
    | error err =>
      simp only
      split
      . exact (Journal.Takes.pure ()).mono fun _ _ _ h => .inl h.1
      . exact hthrow _
    | ok fileType =>
      cases fileType with
      | symlink => exact hthrow _
      | dir => exact hremove (fun _ => rfl) (.inr (.inl rfl)) _
      | file => exact hremove (fun _ => rfl) (.inr (.inr rfl)) _
  . rintro w steps r (⟨err, ⟨rfl, -⟩, -⟩ | ⟨answer, before, after, rfl, ⟨rfl, -⟩, hafter⟩)
    . exact .inl rfl
    . exact hafter

/--
What follows the first pass, given its answer.
-/
inductive Recovered (root : String) (checkout : AbsolutePath) (mode : WebRevision)
    : Except WebError String → List WebStep → Except WebError String → Prop where
  | done (revision : String) : Recovered root checkout mode (.ok revision) [] (.ok revision)
  | failed (err : WebError) : err.kind ≠ .localCheckout → Recovered root checkout mode (.error err) [] (.error err)
  | stopped (err err' : WebError) (removal : List WebStep) : err.kind = .localCheckout → Removal checkout removal →
      Recovered root checkout mode (.error err) removal (.error err')
  | again (err : WebError) (removal inner : List WebStep) (answer : Except WebError String) :
      err.kind = .localCheckout → Removal checkout removal → PassRun root checkout mode inner answer →
      Recovered root checkout mode (.error err) (removal ++ (.entered :: inner ++ [.returned answer])) answer

theorem takes_recover (first : Except WebError String)
    : Journal.Takes (WebStep.move host) (fun _ => Recovered root checkout mode first)
        (recover host config root checkout mode first) := by
  cases first with
  | ok revision =>
    refine (Journal.Takes.pure revision).mono ?_
    rintro w steps r ⟨rfl, rfl⟩
    exact .done revision
  | error err =>
    by_cases hlocal : err.kind = .localCheckout
    . have hstop (err' : WebError) : Journal.Takes (WebStep.move host)
          (fun _ => Recovered root checkout mode (.error err)) (throw err' : Preparing ω String) := by
        refine (Journal.Takes.throw err').mono ?_
        rintro w steps r ⟨rfl, rfl⟩
        exact .stopped err err' [] hlocal (.inl rfl)
      rw [recover, if_pos hlocal]
      refine (Journal.Takes.bind (Journal.Takes.look _) fun checkedAgain =>
        (?_ : Journal.Takes (WebStep.move host) (fun _ => Recovered root checkout mode (.error err)) _)).mono ?_
      . cases checkedAgain with
        | error err' => exact hstop _
        | ok checkedAgain =>
          simp only [mapErr, pure_bind]
          split
          . refine (Journal.Takes.bind takes_removeCheckout fun _ => takes_pass).mono ?_
            rintro w steps r (⟨err', hremoval, rfl⟩ | ⟨u, removal, after, rfl, hremoval, inner, rfl, hpass⟩)
            . exact .stopped err err' steps hlocal hremoval
            . exact .again err removal inner r hlocal hremoval hpass
          . exact hstop _
      . rintro w steps r (⟨err', ⟨-, h⟩, -⟩ | ⟨checkedAgain, before, after, rfl, ⟨rfl, -⟩, hafter⟩)
        . contradiction
        . exact hafter
    . rw [recover, if_neg hlocal]
      refine (Journal.Takes.throw err).mono ?_
      rintro w steps r ⟨rfl, rfl⟩
      exact .failed err hlocal

theorem takes_verifyIndex (revision : String)
    : Journal.Takes (WebStep.move host)
        (fun w steps r => steps = [] ∧ ∀ prepared, r = .ok prepared →
          prepared.checkout = checkout ∧ prepared.revision = revision ∧ host.isFile w prepared.index)
        (verifyIndex host config checkout revision) := by
  refine (Journal.Takes.bind (Journal.Takes.look _) fun found => (?_ : Journal.Takes (WebStep.move host)
    (fun _ steps r => steps = [] ∧ ∀ prepared, r = .ok prepared →
      prepared.checkout = checkout ∧ prepared.revision = revision
        ∧ prepared.index = joinPath config.network.publicDir config.network.webchatIndex ∧ found = true) _)).mono ?_
  . split
    next hfound =>
      refine (Journal.Takes.pure _).mono ?_
      rintro w steps r ⟨rfl, rfl⟩
      refine ⟨rfl, fun prepared h => ?_⟩
      obtain rfl := Except.ok.inj h
      exact ⟨rfl, rfl, rfl, hfound⟩
    next =>
      refine (Journal.Takes.throw _).mono ?_
      rintro w steps r ⟨rfl, rfl⟩
      exact ⟨rfl, fun prepared h => nomatch h⟩
  . rintro w steps r (⟨err', ⟨-, h⟩, -⟩ | ⟨found, before, after, rfl, ⟨rfl, hfound⟩, rfl, hafter⟩)
    . contradiction
    . refine ⟨rfl, fun prepared h => ?_⟩
      obtain ⟨hcheckout, hrevision, hindex, rfl⟩ := hafter prepared h
      rw [hindex]
      exact ⟨hcheckout, hrevision, (Except.ok.inj hfound).symm⟩

end Recovery

end Lqxp.Web
