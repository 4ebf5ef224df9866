import Lqxp.Web.Passes

/-!
This module contains what the preparation of the web client does to the world: which steps it takes, in which
order, and when it succeeds.
-/

namespace Lqxp.Web

def gitVersion (root : String) : CommandRequest := { program := "git", args := ["--version"], cwd := root }

def bunVersion (root : String) : CommandRequest := { program := "bun", args := ["--version"], cwd := root }

namespace WebStep

def checksVersion (root : String) : WebStep → Prop
  | .command request _ => request = gitVersion root ∨ request = bunVersion root
  | _ => False

def removes (path : AbsolutePath) : WebStep → Bool
  | .removeDirAll path' => path' = path
  | .removeFile path' => path' = path
  | _ => false

def enters : WebStep → Bool
  | .entered => true
  | _ => false

end WebStep

def answersOf (steps : List WebStep) : List (Except WebError String) :=
  steps.filterMap fun
    | .returned answer => some answer
    | _ => none

/--
What has been done since the last pass was entered.
-/
def lastPass (steps : List WebStep) : List WebStep := steps.rtakeWhile fun step => !step.enters

/--
Both version checks have succeeded.
-/
def ChecksSucceeded (root : String) (steps : List WebStep) : Prop :=
  ∃ git bun, git.success ∧ bun.success
    ∧ [.command (gitVersion root) (.ok git), .command (bunVersion root) (.ok bun)] <+: steps

/--
There has been one pass, and it has failed with a corrupt checkout.
-/
def FailedLocally (steps : List WebStep) : Prop :=
  ∃ err, err.kind = .localCheckout ∧ answersOf steps = [.error err]

variable {ω : Type} (host : Host ω)

/--
From the world `w` the preparation has taken the given steps to the world `w'`, and has answered.
-/
structure Conservative (config : Config) (root : String) (w : ω) (steps : List WebStep)
    (answer : Except WebError PreparedWeb) (w' : ω) : Prop where
  world : w' = Journal.replay (WebStep.move host) steps w
  checked : Journal.Stepwise (fun before step => ¬ step.checksVersion root → ChecksSucceeded root before) [] steps
  passes : steps.countP WebStep.enters ≤ 2
  reentered : Journal.Stepwise
    (fun before step => step.enters → answersOf before = [] ∨ FailedLocally before) [] steps
  removals (checkout : AbsolutePath) : config.web.checkoutPath host.toFileSystem w root = .ok checkout →
    steps.countP (WebStep.removes checkout) ≤ 1
  recovers (checkout : AbsolutePath) : config.web.checkoutPath host.toFileSystem w root = .ok checkout →
    Journal.Stepwise (fun before step => step.removes checkout → FailedLocally before) [] steps
  firstFailure (err : WebError) (answers : List (Except WebError String)) :
    answersOf steps = .error err :: answers → err.kind ≠ .localCheckout →
      answer = .error err ∧ steps.getLast? = some (.returned (.error err))
  success (prepared : PreparedWeb) : answer = .ok prepared →
    (∀ step ∈ lastPass steps, step.Succeeds)
      ∧ (∃ mode output,
          config.web.revision = .ok mode
            ∧ .command (gitRequest root prepared.checkout (revParseArgs mode)) (.ok output) ∈ lastPass steps
            ∧ prepared.revision = Text.trim output.stdout)
      ∧ prepared.revision ≠ ""
      ∧ host.isFile w' prepared.index

variable {host}

section Shape

variable {config : Config} {root : String} {checkout : AbsolutePath} {mode : WebRevision}

/--
The steps of a whole preparation.
-/
inductive Prepared (host : Host ω) (config : Config) (root : String) (w : ω)
    : List WebStep → Except WebError PreparedWeb → Prop where
  | refused (err : WebError) : Prepared host config root w [] (.error err)
  | noGit (answer : Except IoError CommandOutput) (err : WebError) :
      Prepared host config root w [.command (gitVersion root) answer] (.error err)
  | noBun (git : CommandOutput) (answer : Except IoError CommandOutput) (err : WebError) :
      Prepared host config root w [.command (gitVersion root) (.ok git), .command (bunVersion root) answer]
        (.error err)
  | passes (mode : WebRevision) (checkout : AbsolutePath) (git bun : CommandOutput) (inner rest : List WebStep)
      (first last : Except WebError String) (answer : Except WebError PreparedWeb) :
      config.web.revision = .ok mode → config.web.checkoutPath host.toFileSystem w root = .ok checkout →
      git.success → bun.success → PassRun root checkout mode inner first →
      Recovered root checkout mode first rest last → (∀ err, last = .error err → answer = .error err) →
      (∀ prepared, answer = .ok prepared → prepared.checkout = checkout ∧ last = .ok prepared.revision) →
      Prepared host config root w
        ([.command (gitVersion root) (.ok git), .command (bunVersion root) (.ok bun)]
          ++ (.entered :: inner ++ [.returned first] ++ rest)) answer

theorem takes_passes
    : Journal.Takes (WebStep.move host)
        (fun w steps r => ∃ inner first rest last,
          steps = .entered :: inner ++ [.returned first] ++ rest ∧ PassRun root checkout mode inner first
            ∧ Recovered root checkout mode first rest last ∧ (∀ err, last = .error err → r = .error err)
            ∧ ∀ prepared, r = .ok prepared → prepared.checkout = checkout ∧ last = .ok prepared.revision
              ∧ host.isFile (Journal.replay (WebStep.move host) steps w) prepared.index)
        (do
          let firstPass ← Journal.attempt (pass host config root checkout mode)
          let revision ← recover host config root checkout mode firstPass
          verifyIndex host config checkout revision) := by
  refine (Journal.Takes.bind takes_pass.attempt fun first => Journal.Takes.bind (takes_recover first) fun revision =>
    takes_verifyIndex revision).mono ?_
  rintro w steps r (⟨err, ⟨answer, h, -⟩, -⟩
    | ⟨first, before, after, rfl, ⟨first', hfirst, inner, rfl, hinner⟩, hafter⟩)
  . contradiction
  . obtain rfl := Except.ok.inj hfirst
    rcases hafter with ⟨err, hrecovered, rfl⟩ | ⟨revision, rest, nothing, rfl, hrecovered, rfl, hindex⟩
    . refine ⟨inner, first, after, _, rfl, hinner, hrecovered, ?_, fun prepared h => absurd h (by simp)⟩
      exact fun err' h => congrArg _ (Except.error.inj h)
    . refine ⟨inner, first, rest, _, by rw [List.append_nil], hinner, hrecovered, fun err h => (nomatch h), ?_⟩
      intro prepared hprepared
      obtain ⟨hcheckout, hrevision, hfile⟩ := hindex prepared hprepared
      rw [List.append_nil, Journal.replay_append]
      exact ⟨hcheckout, congrArg _ hrevision.symm, hfile⟩

theorem takes_prepare
    : Journal.Takes (WebStep.move host)
        (fun w steps r => Prepared host config root w steps r
          ∧ ∀ prepared, r = .ok prepared → host.isFile (Journal.replay (WebStep.move host) steps w) prepared.index)
        (prepare host config root) := by
  rw [prepare]
  cases hmode : config.web.revision with
  | error err =>
    refine (Journal.Takes.throw (configurationError "web configuration" err)).mono ?_
    rintro w steps r ⟨rfl, rfl⟩
    exact ⟨.refused _, fun prepared h => absurd h (by simp)⟩
  | ok mode =>
    rw [mapErr, pure_bind]
    refine (Journal.Takes.bind (Journal.Takes.look _) fun path => (?_ : Journal.Takes (WebStep.move host)
      (fun w steps r =>
        (config.web.checkoutPath host.toFileSystem w root = path → Prepared host config root w steps r)
        ∧ ∀ prepared, r = .ok prepared → host.isFile (Journal.replay (WebStep.move host) steps w) prepared.index)
      _)).mono ?_
    . cases path with
      | error err =>
        refine (Journal.Takes.throw (configurationError "checkout path validation" err)).mono ?_
        rintro w steps r ⟨rfl, rfl⟩
        exact ⟨fun _ => .refused _, fun prepared h => absurd h (by simp)⟩
      | ok checkout =>
        rw [mapErr, pure_bind]
        refine (Journal.Takes.bind (takes_runCommand (gitVersion root) _ _) fun _ =>
          Journal.Takes.bind (takes_runCommand (bunVersion root) _ _) fun _ =>
          takes_passes).mono ?_
        rintro w steps r (⟨err, ⟨answer, rfl, -⟩, rfl⟩ | ⟨git, before, after, rfl, ⟨answer, rfl, hgit⟩, hafter⟩)
        . exact ⟨fun _ => .noGit answer err, fun prepared h => absurd h (by simp)⟩
        . obtain ⟨rfl, hgit'⟩ := hgit git rfl
          rcases hafter with ⟨err, ⟨answer, rfl, -⟩, rfl⟩ | ⟨bun, before, after, rfl, ⟨answer, rfl, hbun⟩, hafter⟩
          . exact ⟨fun _ => .noBun git answer err, fun prepared h => absurd h (by simp)⟩
          . obtain ⟨rfl, hbun'⟩ := hbun bun rfl
            obtain ⟨inner, first, rest, last, rfl, hinner, hrecovered, hlast, hprepared⟩ := hafter
            refine ⟨fun hcheckout => ?_, fun prepared h => ?_⟩
            . exact .passes mode checkout git bun inner rest first last r hmode hcheckout hgit' hbun' hinner
                hrecovered hlast fun prepared h => ⟨(hprepared prepared h).1, (hprepared prepared h).2.1⟩
            . rw [Journal.replay_append, Journal.replay_append]
              exact (hprepared prepared h).2.2
    . rintro w steps r (⟨err', ⟨-, h⟩, -⟩ | ⟨path, before, after, rfl, ⟨rfl, hpath⟩, hafter⟩)
      . contradiction
      . exact ⟨hafter.1 (Except.ok.inj hpath).symm, hafter.2⟩


section Steps

theorem answersOf_append (steps steps' : List WebStep)
    : answersOf (steps ++ steps') = answersOf steps ++ answersOf steps' :=
  List.filterMap_append

theorem answersOf_inner {inner : List WebStep} (h : ∀ step ∈ inner, step.Inner checkout) : answersOf inner = [] := by
  rw [answersOf, List.filterMap_eq_nil_iff]
  intro step hstep
  have := h step hstep
  cases step <;> first | rfl | exact this.elim

theorem answersOf_pass {inner : List WebStep} (h : ∀ step ∈ inner, step.Inner checkout)
    (answer : Except WebError String) : answersOf (.entered :: inner ++ [.returned answer]) = [answer] := by
  rw [answersOf_append, show answersOf (.entered :: inner) = answersOf inner from rfl, answersOf_inner h]
  rfl

theorem WebStep.Inner.not_enters {step : WebStep} (h : step.Inner checkout) : step.enters = false := by
  cases step <;> first | rfl | exact h.elim

theorem WebStep.Inner.not_removes {step : WebStep} (h : step.Inner checkout) : step.removes checkout = false := by
  have hlonger : checkout ++ ["node_modules"] ≠ checkout := by simp
  cases step with
  | removeDirAll path =>
    rw [show path = checkout ++ ["node_modules"] from h]
    exact decide_eq_false hlonger
  | removeFile path =>
    rw [show path = checkout ++ ["node_modules"] from h]
    exact decide_eq_false hlonger
  | command | createDirAll | entered | returned => rfl

theorem lastPass_append (before : List WebStep) {inner : List WebStep} (h : ∀ step ∈ inner, step.Inner checkout)
    (answer : Except WebError String)
    : lastPass (before ++ (.entered :: inner ++ [.returned answer])) = inner ++ [.returned answer] := by
  have hinner : ∀ step ∈ (inner ++ [WebStep.returned answer]).reverse, (!step.enters) = true := by
    intro step hstep
    rcases List.mem_append.1 (List.mem_reverse.1 hstep) with hstep | hstep
    . rw [(h step hstep).not_enters, Bool.not_false]
    . rw [List.mem_singleton.1 hstep]
      rfl
  rw [lastPass, List.rtakeWhile, List.cons_append, List.reverse_append, List.reverse_cons, List.append_assoc,
    List.takeWhile_append_of_pos hinner, List.singleton_append, List.takeWhile_cons_of_neg (by simp [WebStep.enters]),
    List.append_nil, List.reverse_reverse]

end Steps

section Fields

theorem stepwise_of_not {T : WebStep → Prop} {A : List WebStep → Prop} {before steps : List WebStep}
    (h : ∀ step ∈ steps, ¬ T step) : Journal.Stepwise (fun before step => T step → A before) before steps :=
  .of_forall fun _ _ step hstep htrigger => absurd htrigger (h step hstep)

theorem stepwise_pass {T : WebStep → Prop} {A : List WebStep → Prop} {before inner : List WebStep}
    {answer : Except WebError String} (hbefore : T .entered → A before)
    (hinner : ∀ step ∈ inner, ¬ T step) (hreturned : ¬ T (.returned answer))
    : Journal.Stepwise (fun before step => T step → A before) before
        (.entered :: inner ++ [.returned answer]) := by
  refine ⟨hbefore, stepwise_of_not fun step hstep => ?_⟩
  rcases List.mem_append.1 hstep with hstep | hstep
  . exact hinner step hstep
  . rw [List.mem_singleton.1 hstep]
    exact hreturned

theorem Removal.forall {removal : List WebStep} (h : Removal checkout removal) {P : WebStep → Prop}
    (hdir : P (.removeDirAll checkout)) (hfile : P (.removeFile checkout)) : ∀ step ∈ removal, P step := by
  rcases h with rfl | rfl | rfl
  . simp
  . simpa using hdir
  . simpa using hfile

theorem Removal.stepwise {removal before : List WebStep} (h : Removal checkout removal)
    {A : List WebStep → WebStep → Prop} (hA : ∀ step, A before step) : Journal.Stepwise A before removal := by
  rcases h with rfl | rfl | rfl
  . trivial
  . exact ⟨hA _, trivial⟩
  . exact ⟨hA _, trivial⟩

theorem Removal.answersOf {removal : List WebStep} (h : Removal checkout removal) : answersOf removal = [] := by
  rcases h with rfl | rfl | rfl <;> rfl

theorem Removal.countP_enters {removal : List WebStep} (h : Removal checkout removal)
    : removal.countP WebStep.enters = 0 := by
  rcases h with rfl | rfl | rfl <;> rfl

theorem Removal.length_le {removal : List WebStep} (h : Removal checkout removal) : removal.length ≤ 1 := by
  rcases h with rfl | rfl | rfl <;> simp

variable {inner rest : List WebStep} {first last : Except WebError String}

theorem countP_enters_pass (hinner : ∀ step ∈ inner, step.Inner checkout) (answer : Except WebError String)
    : (.entered :: inner ++ [.returned answer] : List WebStep).countP WebStep.enters = 1 := by
  have hnone : inner.countP WebStep.enters = 0 :=
    List.countP_eq_zero.2 fun step hstep => by simp [(hinner step hstep).not_enters]
  rw [List.countP_append, List.countP_cons_of_pos rfl, hnone]
  rfl

theorem countP_removes_pass (hinner : ∀ step ∈ inner, step.Inner checkout) (answer : Except WebError String)
    : (.entered :: inner ++ [.returned answer] : List WebStep).countP (WebStep.removes checkout) = 0 := by
  refine List.countP_eq_zero.2 fun step hstep => ?_
  rcases List.mem_append.1 hstep with hstep | hstep
  . rcases List.mem_cons.1 hstep with rfl | hstep
    . exact Bool.false_ne_true
    . simp [(hinner step hstep).not_removes]
  . rw [List.mem_singleton.1 hstep]
    exact Bool.false_ne_true

theorem Recovered.countP_enters_le (h : Recovered root checkout mode first rest last)
    : rest.countP WebStep.enters ≤ 1 := by
  cases h with
  | done | failed => simp
  | stopped err err' removal hlocal hremoval => simp [hremoval.countP_enters]
  | again err removal inner answer hlocal hremoval hinner =>
    rw [List.countP_append, hremoval.countP_enters, countP_enters_pass hinner.allowed]

theorem Recovered.countP_removes_le (h : Recovered root checkout mode first rest last)
    : rest.countP (WebStep.removes checkout) ≤ 1 := by
  cases h with
  | done | failed => simp
  | stopped err err' removal hlocal hremoval => exact Nat.le_trans List.countP_le_length hremoval.length_le
  | again err removal inner answer hlocal hremoval hinner =>
    rw [List.countP_append, countP_removes_pass hinner.allowed]
    exact Nat.le_trans List.countP_le_length hremoval.length_le

theorem Recovered.reentered (h : Recovered root checkout mode first rest last) {before : List WebStep}
    (hbefore : answersOf before = [first])
    : Journal.Stepwise (fun before step => step.enters → answersOf before = [] ∨ FailedLocally before) before
        rest := by
  cases h with
  | done | failed => trivial
  | stopped err err' removal hlocal hremoval =>
    exact stepwise_of_not (hremoval.forall Bool.false_ne_true Bool.false_ne_true)
  | again err removal inner answer hlocal hremoval hinner =>
    refine Journal.Stepwise.append_iff.2
      ⟨stepwise_of_not (hremoval.forall Bool.false_ne_true Bool.false_ne_true), ?_⟩
    refine stepwise_pass (T := fun step => step.enters = true) (fun _ => .inr ⟨err, hlocal, ?_⟩)
      (fun step hstep => ?_) Bool.false_ne_true
    . rw [answersOf_append, hbefore, hremoval.answersOf, List.append_nil]
    . simp [(hinner.allowed step hstep).not_enters]

theorem Recovered.recovers (h : Recovered root checkout mode first rest last) {before : List WebStep}
    (hbefore : answersOf before = [first])
    : Journal.Stepwise (fun before step => step.removes checkout → FailedLocally before) before rest := by
  cases h with
  | done | failed => trivial
  | stopped err err' removal hlocal hremoval =>
    exact hremoval.stepwise fun _ _ => ⟨err, hlocal, hbefore⟩
  | again err removal inner answer hlocal hremoval hinner =>
    refine Journal.Stepwise.append_iff.2 ⟨hremoval.stepwise fun _ _ => ⟨err, hlocal, hbefore⟩, ?_⟩
    refine stepwise_pass (T := fun step => step.removes checkout = true) (fun h => absurd h Bool.false_ne_true)
      (fun step hstep => ?_) Bool.false_ne_true
    simp [(hinner.allowed step hstep).not_removes]

theorem Recovered.lastPass_of_ok {revision : String} (h : Recovered root checkout mode first rest (.ok revision))
    (hinner : PassRun root checkout mode inner first) (before : List WebStep)
    : ∃ inner', PassRun root checkout mode inner' (.ok revision)
        ∧ lastPass (before ++ (.entered :: inner ++ [.returned first] ++ rest))
            = inner' ++ [.returned (.ok revision)] := by
  cases h with
  | done =>
    refine ⟨inner, hinner, ?_⟩
    rw [List.append_nil]
    exact lastPass_append before hinner.allowed _
  | again err removal inner' answer hlocal hremoval hinner' =>
    refine ⟨inner', hinner', ?_⟩
    rw [← List.append_assoc, ← List.append_assoc]
    exact lastPass_append _ hinner'.allowed _

end Fields

section Whole

variable {w : ω} {steps : List WebStep} {answer : Except WebError PreparedWeb}

theorem WebStep.checksVersion.eq {step : WebStep} (h : step.checksVersion root)
    : ∃ request answer, step = .command request answer := by
  cases step with
  | command request answer => exact ⟨request, answer, rfl⟩
  | createDirAll | removeDirAll | removeFile | entered | returned => exact h.elim

theorem Conservative.of_checks (h : ∀ step ∈ steps, step.checksVersion root) (err : WebError)
    : Conservative host config root w steps (.error err) (Journal.replay (WebStep.move host) steps w) := by
  have hcommand {P : WebStep → Prop} (hP : ∀ request answer, P (.command request answer))
      : ∀ step ∈ steps, P step := by
    intro step hstep
    obtain ⟨request, answer, rfl⟩ := (h step hstep).eq
    exact hP request answer
  have hanswers : answersOf steps = [] :=
    List.filterMap_eq_nil_iff.2 (hcommand (P := fun step => _ = none) fun _ _ => rfl)
  have henters : steps.countP WebStep.enters = 0 := List.countP_eq_zero.2 (hcommand fun _ _ => Bool.false_ne_true)
  constructor
  case world => rfl
  case checked => exact stepwise_of_not fun step hstep hnot => hnot (h step hstep)
  case passes => simp [henters]
  case reentered => exact stepwise_of_not (hcommand fun _ _ => Bool.false_ne_true)
  case removals =>
    intro checkout _
    rw [List.countP_eq_zero.2 (hcommand fun _ _ => Bool.false_ne_true)]
    exact Nat.zero_le 1
  case recovers => exact fun checkout _ => stepwise_of_not (hcommand fun _ _ => Bool.false_ne_true)
  case firstFailure =>
    intro err' answers hfirst _
    rw [hanswers] at hfirst
    contradiction
  case success => exact fun prepared hprepared => nomatch hprepared

theorem Prepared.conservative (h : Prepared host config root w steps answer)
    (hindex : ∀ prepared, answer = .ok prepared →
      host.isFile (Journal.replay (WebStep.move host) steps w) prepared.index)
    : Conservative host config root w steps answer (Journal.replay (WebStep.move host) steps w) := by
  cases h with
  | refused err => exact .of_checks (by simp) err
  | noGit answer err => exact .of_checks (by simp [WebStep.checksVersion]) err
  | noBun git answer err => exact .of_checks (by simp [WebStep.checksVersion]) err
  | passes mode checkout git bun inner rest first last answer hmode hcheckout hgit hbun hinner hrest hlast
      hprepared =>
    have hchecks : ∀ step ∈ [WebStep.command (gitVersion root) (.ok git), .command (bunVersion root) (.ok bun)],
        step.checksVersion root := by
      simp [WebStep.checksVersion]
    have hfirst : answersOf ([.command (gitVersion root) (.ok git), .command (bunVersion root) (.ok bun)]
        ++ (.entered :: inner ++ [.returned first])) = [first] := by
      rw [answersOf_append, answersOf_pass hinner.allowed]
      rfl
    have hchecksOnly : Conservative host config root w _ (.error (.new .system "" none none "")) _ :=
      .of_checks hchecks _
    constructor
    case world => rfl
    case checked =>
      refine Journal.Stepwise.append_iff.2 ⟨hchecksOnly.checked, .of_forall fun before hbefore step _ _ => ?_⟩
      exact ⟨git, bun, hgit, hbun, hbefore⟩
    case passes =>
      have hle := hrest.countP_enters_le
      rw [List.countP_append, List.countP_append, countP_enters_pass hinner.allowed]
      simp only [List.countP_cons, List.countP_nil, WebStep.enters]
      simp only [Bool.false_eq_true, if_false]
      omega
    case reentered =>
      refine Journal.Stepwise.append_iff.2 ⟨hchecksOnly.reentered, Journal.Stepwise.append_iff.2 ⟨?_, ?_⟩⟩
      . refine stepwise_pass (T := fun step => step.enters = true) (fun _ => .inl rfl) (fun step hstep => ?_)
          Bool.false_ne_true
        simp [(hinner.allowed step hstep).not_enters]
      . exact hrest.reentered hfirst
    case removals =>
      intro checkout' hcheckout'
      obtain rfl := Except.ok.inj (hcheckout.symm.trans hcheckout')
      have hle := hrest.countP_removes_le
      rw [List.countP_append, List.countP_append, countP_removes_pass hinner.allowed]
      simpa [WebStep.removes] using hle
    case recovers =>
      intro checkout' hcheckout'
      obtain rfl := Except.ok.inj (hcheckout.symm.trans hcheckout')
      refine Journal.Stepwise.append_iff.2
        ⟨hchecksOnly.recovers checkout hcheckout, Journal.Stepwise.append_iff.2 ⟨?_, ?_⟩⟩
      . refine stepwise_pass (T := fun step => step.removes checkout = true) (fun h => absurd h Bool.false_ne_true)
          (fun step hstep => ?_) Bool.false_ne_true
        simp [(hinner.allowed step hstep).not_removes]
      . exact hrest.recovers hfirst
    case firstFailure =>
      intro err answers hfailed hkind
      rw [← List.append_assoc, answersOf_append, hfirst] at hfailed
      obtain rfl := (List.cons.inj hfailed).1
      cases hrest with
      | failed =>
        refine ⟨hlast err rfl, ?_⟩
        rw [List.append_nil, ← List.append_assoc]
        exact List.getLast?_concat
      | stopped _ _ _ hlocal => exact absurd hlocal hkind
      | again _ _ _ _ hlocal => exact absurd hlocal hkind
    case success =>
      intro prepared hok
      obtain ⟨rfl, rfl⟩ := hprepared prepared hok
      obtain ⟨inner', hinner', hlastPass⟩ := hrest.lastPass_of_ok hinner
        [.command (gitVersion root) (.ok git), .command (bunVersion root) (.ok bun)]
      rw [hlastPass]
      obtain ⟨hnonempty, output, houtput, hrevision⟩ := hinner'.resolved _ rfl
      refine ⟨fun step hstep => ?_, ⟨mode, output, hmode, List.mem_append_left _ houtput, hrevision⟩, hnonempty,
        hindex prepared hok⟩
      rcases List.mem_append.1 hstep with hstep | hstep
      . exact hinner'.succeeds _ rfl step hstep
      . rw [List.mem_singleton.1 hstep]
        trivial

end Whole

/--
The preparation is bounded and conservative, whatever the world does.
-/
theorem prepare_conservative (host : Host ω) (config : Config) (root : String) (w : ω)
    : Conservative host config root w (Calls.outcome (prepare host config root) ⟨w, []⟩).2.steps
        (Calls.outcome (prepare host config root) ⟨w, []⟩).1
        (Calls.outcome (prepare host config root) ⟨w, []⟩).2.world := by
  obtain ⟨steps, ⟨hshape, hindex⟩, hend⟩ := takes_prepare ⟨w, []⟩
  rw [hend, List.nil_append]
  generalize (Calls.outcome (prepare host config root) ⟨w, []⟩).1 = answer at hshape hindex
  exact hshape.conservative hindex

end Shape
end Lqxp.Web
