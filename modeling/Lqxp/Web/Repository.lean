import Lqxp.Core.Config
import Lqxp.Prog.Journal
import Lqxp.Web.Command

/-!
This module contains the preparation of the web client: the passes over its checkout, and the recovery from a
corrupt one.
-/

namespace Lqxp.Web

inductive Stage where
  | toolGit
  | toolBun
  | clone
  | inspectCheckout
  | setOrigin
  | fetch
  | validateTag
  | resolveRevision
  | checkout
  | reset
  | clean
  | dependencyCleanup
  | bunInstall
  | bunBuild
  | verifyOutput
  deriving DecidableEq

def Stage.label : Stage → String
  | .toolGit => "git tool validation"
  | .toolBun => "Bun tool validation"
  | .clone => "repository clone"
  | .inspectCheckout => "checkout inspection"
  | .setOrigin => "origin configuration"
  | .fetch => "remote fetch"
  | .validateTag => "tag validation"
  | .resolveRevision => "revision resolution"
  | .checkout => "revision checkout"
  | .reset => "checkout reset"
  | .clean => "checkout clean"
  | .dependencyCleanup => "dependency cleanup"
  | .bunInstall => "Bun install"
  | .bunBuild => "Bun build"
  | .verifyOutput => "built index verification"

structure PreparedWeb where
  checkout : AbsolutePath
  revision : String
  index : String
  deriving DecidableEq

/--
What the preparation does to the world. The entry into a pass and the return from it are written down as well.
-/
inductive WebStep where
  | command (request : CommandRequest) (answer : Except IoError CommandOutput)
  | createDirAll (path : AbsolutePath)
  | removeDirAll (path : AbsolutePath)
  | removeFile (path : AbsolutePath)
  | entered
  | returned (answer : Except WebError String)

variable {ω : Type} (host : Host ω)

def WebStep.move : WebStep → ω → ω
  | .command request _, w => (host.run request w).2
  | .createDirAll path, w => (host.createDirAll path w).2
  | .removeDirAll path, w => (host.removeDirAll path w).2
  | .removeFile path, w => (host.removeFile path w).2
  | .entered, w => w
  | .returned _, w => w

abbrev Preparing (ω : Type) (α : Type) := EStateM WebError (Journal ω WebStep) α

/--
Go on with the value, or fail with what the error is turned into.
-/
def mapErr {ε α : Type} (f : ε → WebError) : Except ε α → Preparing ω α
  | .ok a => return a
  | .error err => throw (f err)

def isStaleGitLock (detail : String) : Bool :=
  Text.contains detail "another git process seems to be running"
    || Text.contains detail "index.lock"
    || Text.contains detail "shallow.lock"
    || Text.contains detail "cannot lock ref"
    || (Text.contains detail "unable to create" && Text.contains detail ".lock"
      && Text.contains detail "file exists")

/--
The kind of the failure of a command that has run and not succeeded.
-/
def failureKindOf (stage : Stage) (failureKind : WebFailureKind) (detail : String) : WebFailureKind :=
  let lowercase := Text.toAsciiLower detail
  if ["permission denied", "read-only file system", "no space left on device"].any (Text.contains lowercase) then
    .system
  else if stage = .fetch && isStaleGitLock lowercase then
    .localCheckout
  else
    failureKind

def runCommand (request : CommandRequest) (stage : Stage) (failureKind : WebFailureKind)
    : Preparing ω CommandOutput := do
  let output ← mapErr (fun err => .new .system stage.label (some request) none err.message)
    (← Journal.act (host.run request) (.command request))
  if output.success then
    return output
  let detail := Text.trim output.stderr
  throw (.new (failureKindOf stage failureKind detail) stage.label (some request) output.status detail)

def gitRequest (root : String) (checkout : AbsolutePath) (args : List String) : CommandRequest :=
  { program := "git", args := "-C" :: checkout.text :: args, cwd := root }

def git (root : String) (checkout : AbsolutePath) (args : List String) (stage : Stage)
    (failureKind : WebFailureKind) : Preparing ω CommandOutput :=
  runCommand host (gitRequest root checkout args) stage failureKind

def createDirAll (path : AbsolutePath) : Preparing ω (Except IoError Unit) :=
  Journal.act (host.createDirAll path) fun _ => .createDirAll path

def removeDirAll (path : AbsolutePath) : Preparing ω (Except IoError Unit) :=
  Journal.act (host.removeDirAll path) fun _ => .removeDirAll path

def removeFile (path : AbsolutePath) : Preparing ω (Except IoError Unit) :=
  Journal.act (host.removeFile path) fun _ => .removeFile path

def removeDependencyTree (path : AbsolutePath) : Preparing ω Unit := do
  let systemError (err : IoError) : WebError :=
    .new .system Stage.dependencyCleanup.label none none err.message
  match ← Journal.look (host.symlinkMetadata · path) with
  | .error err => if err.kind = .notFound then return () else throw (systemError err)
  | .ok fileType =>
    let result ← if fileType = .dir then removeDirAll host path else removeFile host path
    mapErr systemError result

def removeCheckout (checkout : AbsolutePath) : Preparing ω Unit := do
  match ← Journal.look (host.symlinkMetadata · checkout) with
  | .error err =>
    if err.kind = .notFound then
      return ()
    else
      throw (.new .system "checkout recovery inspection" none none err.message)
  | .ok .symlink =>
    throw (.new .configuration "checkout recovery inspection" none none
      "checkout path became a symlink during recovery")
  | .ok fileType =>
    let result ← if fileType = .dir then removeDirAll host checkout else removeFile host checkout
    mapErr (fun err => .new .system "checkout recovery removal" none none err.message) result

/--
The arguments of the command that resolves the revision.
-/
def revParseArgs : WebRevision → List String
  | .fresh => ["rev-parse", "--verify", "refs/remotes/origin/HEAD^{commit}"]
  | .tag tag => ["rev-parse", "--verify", "refs/tags/" ++ tag ++ "^{commit}"]

def openCheckout (config : Config) (root : String) (checkout : AbsolutePath) : Preparing ω Unit := do
  if ← Journal.look (host.pathExists · checkout) then
    let _ ← git host root checkout ["rev-parse", "--is-inside-work-tree"] .inspectCheckout .localCheckout
  else
    if checkout ≠ [] then
      mapErr (fun err => .new .system Stage.clone.label none none err.message)
        (← createDirAll host checkout.dropLast)
    let _ ← runCommand host
      { program := "git", args := ["clone", "--no-checkout", config.web.repo, checkout.text], cwd := root }
      .clone .external

def fetchRemote (config : Config) (root : String) (checkout : AbsolutePath) : Preparing ω Unit := do
  let _ ← git host root checkout ["remote", "set-url", "origin", config.web.repo] .setOrigin .localCheckout
  let _ ← git host root checkout ["fetch", "--force", "--prune", "--tags", "origin"] .fetch .external

/--
The command before the one that resolves the revision.
-/
def readyRevision (root : String) (checkout : AbsolutePath) : WebRevision → Preparing ω CommandOutput
  | .fresh => git host root checkout ["remote", "set-head", "origin", "--auto"] .resolveRevision .source
  | .tag tag => git host root checkout ["check-ref-format", "refs/tags/" ++ tag] .validateTag .configuration

/--
The revision that Git has printed, unless it has printed none.
-/
def nonEmptyRevision (output : CommandOutput) : Preparing ω String :=
  let revision := Text.trim output.stdout
  if revision = "" then
    throw (.new .source Stage.resolveRevision.label none output.status "Git returned an empty revision")
  else
    return revision

def buildRevision (root : String) (checkout : AbsolutePath) (revision : String) : Preparing ω Unit := do
  let _ ← git host root checkout ["checkout", "--detach", "--force", revision] .checkout .localCheckout
  let _ ← git host root checkout ["reset", "--hard", revision] .reset .localCheckout
  let _ ← git host root checkout ["clean", "-fdx"] .clean .localCheckout
  removeDependencyTree host (checkout ++ ["node_modules"])
  let _ ← runCommand host { program := "bun", args := ["install"], cwd := checkout.text } .bunInstall .source
  let _ ← runCommand host { program := "bun", args := ["run", "build"], cwd := checkout.text } .bunBuild .build

def prepareOnce (config : Config) (root : String) (checkout : AbsolutePath) (revisionMode : WebRevision)
    : Preparing ω String := do
  openCheckout host config root checkout
  fetchRemote host config root checkout
  let _ ← readyRevision host root checkout revisionMode
  let revisionOutput ← git host root checkout (revParseArgs revisionMode) .resolveRevision .source
  let revision ← nonEmptyRevision revisionOutput
  buildRevision host root checkout revision
  return revision

def pass (config : Config) (root : String) (checkout : AbsolutePath) (revisionMode : WebRevision)
    : Preparing ω String :=
  Journal.enclosed .entered .returned (prepareOnce host config root checkout revisionMode)

def joinPath (dir name : String) : String :=
  if Text.startsWith name "/" then name
  else if dir = "" ∨ dir.toList.getLast? = some '/' then dir ++ name
  else dir ++ "/" ++ name

def configurationError (stage : String) (err : ConfigError) : WebError :=
  .new .configuration stage none none err.message

/--
What follows the first pass: its revision, its error, or after a corrupt checkout the second pass.
-/
def recover (config : Config) (root : String) (checkout : AbsolutePath) (revisionMode : WebRevision)
    : Except WebError String → Preparing ω String
  | .ok revision => return revision
  | .error error =>
    if error.kind = .localCheckout then do
      let checkedAgain ← mapErr (configurationError "checkout recovery path validation")
        (← Journal.look (config.web.checkoutPath host.toFileSystem · root))
      if checkedAgain = checkout then
        removeCheckout host checkout
        pass host config root checkout revisionMode
      else
        throw (.new .configuration "checkout recovery path validation" none none
          "checkout path changed during recovery")
    else
      throw error

def verifyIndex (config : Config) (checkout : AbsolutePath) (revision : String) : Preparing ω PreparedWeb := do
  let index := joinPath config.network.publicDir config.network.webchatIndex
  if ← Journal.look (host.isFile · index) then
    return { checkout, revision, index }
  else
    throw (.new .output Stage.verifyOutput.label none none
      ("built web index is missing or not a file: " ++ index))

def prepare (config : Config) (root : String) : Preparing ω PreparedWeb := do
  let revisionMode ← mapErr (configurationError "web configuration") config.web.revision
  let checkout ← mapErr (configurationError "checkout path validation")
    (← Journal.look (config.web.checkoutPath host.toFileSystem · root))
  let _ ← runCommand host { program := "git", args := ["--version"], cwd := root } .toolGit .system
  let _ ← runCommand host { program := "bun", args := ["--version"], cwd := root } .toolBun .system
  let firstPass ← Journal.attempt (pass host config root checkout revisionMode)
  let revision ← recover host config root checkout revisionMode firstPass
  verifyIndex host config checkout revision

end Lqxp.Web
