import Lqxp.Core.Files
import Lqxp.Data.Text

/-!
This module contains the configuration of the web client, and the checks of it.
-/

namespace Lqxp

structure WebConfig where
  repo : String
  directory : String
  fresh : Bool
  tag : String := ""

structure NetworkConfig where
  publicDir : String
  webchatIndex : String

structure Config where
  network : NetworkConfig
  web : WebConfig

inductive WebRevision where
  | fresh
  | tag (tag : String)
  deriving DecidableEq

structure ConfigError where
  message : String
  deriving DecidableEq

/--
Drop all copies of a piece that a text begins with, at most `n` of them.
-/
def stripPieces (piece : List Char) : Nat → List Char → List Char
  | 0, chars => chars
  | n + 1, chars => if piece.isPrefixOf chars then stripPieces piece n (chars.drop piece.length) else chars

/--
Drop all copies of a piece that a text ends with.
-/
def trimEndPieces (piece s : String) : String :=
  String.ofList (stripPieces piece.toList.reverse s.toList.length s.toList.reverse).reverse

def validPart (part : String) : Bool :=
  part ≠ "" && part.toList.all fun c => Text.isAsciiAlphanumeric c || c = '.' || c = '_' || c = '-'

def validateWebRepo (repo : String) : Except ConfigError Unit := do
  let path ←
    match Text.stripPrefix "https://github.com/" repo with
    | some path => pure path
    | none =>
      match Text.stripPrefix "git@github.com:" repo with
      | some path => pure path
      | none => throw ⟨"[web].repo must use GitHub HTTPS or SSH syntax"⟩
  let parts := Text.splitOn '/' path
  let owner := parts.head?.getD ""
  let repository := parts[1]?.getD ""
  if parts[2]?.isSome || !validPart owner || !repository.endsWith ".git"
      || !validPart (trimEndPieces ".git" repository) then
    throw ⟨"[web].repo must identify OWNER/REPOSITORY.git on GitHub"⟩

def WebConfig.revision (config : WebConfig) : Except ConfigError WebRevision := do
  validateWebRepo config.repo
  let tag := Text.trim config.tag
  match config.fresh, decide (tag = "") with
  | true, true => return .fresh
  | false, false => return .tag tag
  | true, false => throw ⟨"[web].tag must be empty when [web].fresh is true"⟩
  | false, true => throw ⟨"[web].tag is required when [web].fresh is false"⟩

inductive Component where
  | rootDir
  | curDir
  | parentDir
  | normal (part : String)
  deriving DecidableEq

/--
The components of a path. A dot counts only at the beginning of a relative path.
-/
def components (path : String) : List Component :=
  let pieces := Text.splitOn '/' path
  let first : List Component :=
    if Text.startsWith path "/" then [.rootDir] else if pieces.head? = some "." then [.curDir] else []
  first ++ pieces.filterMap fun
    | "" | "." => none
    | ".." => some .parentDir
    | part => some (.normal part)

def resolveComponents : List Component → AbsolutePath → Except ConfigError AbsolutePath
  | [], target => return target
  | .normal part :: rest, target => resolveComponents rest (target ++ [part])
  | .curDir :: rest, target => resolveComponents rest target
  | .parentDir :: rest, target =>
    if target = [] then
      throw ⟨"[web].directory cannot traverse beyond the filesystem root"⟩
    else
      resolveComponents rest target.dropLast
  | .rootDir :: _, _ => throw ⟨"[web].directory must be a relative path"⟩

/--
The names below the root of the server that its checkout may not take.
-/
def protectedNames : List String :=
  [".codex", ".dockerignore", ".git", ".gitattributes", ".github", ".gitignore", ".superpowers", "Cargo.lock",
    "Cargo.toml", "Dockerfile", "LICENSE", "README.md", "deploy", "docker-compose.yml", "docs", "explain", "files",
    "nginx.conf", "placeholder.xcf", "pm2.config.cjs", "rust", "scripts", "serve.public", "target", "update.sh"]

variable {ω : Type} (fs : FileSystem ω)

/--
Look for symbolic links on the way from one path down the given names.
-/
def checkNoSymlink (w : ω) : AbsolutePath → List String → Except ConfigError Unit
  | _, [] => return ()
  | current, name :: names => do
    let current := current ++ [name]
    match fs.symlinkMetadata w current with
    | .ok fileType =>
      if fileType = .symlink then
        throw ⟨"[web].directory crosses symlink " ++ current.text⟩
    | .error err =>
      if err.kind ≠ .notFound then
        throw ⟨"cannot inspect web path " ++ current.text ++ ": " ++ err.message⟩
    checkNoSymlink w current names

def WebConfig.checkoutPath (config : WebConfig) (w : ω) (root : String) : Except ConfigError AbsolutePath := do
  if config.directory = "" ∨ Text.startsWith config.directory "/" then
    throw ⟨"[web].directory must be a non-empty relative path"⟩
  let canonicalRoot ←
    match fs.canonicalize w root with
    | .ok path => pure path
    | .error err => throw ⟨"cannot resolve QXP_ROOT " ++ root ++ ": " ++ err.message⟩
  if canonicalRoot = [] then
    throw ⟨"QXP_ROOT has no parent available for web checkout validation"⟩
  let boundary := canonicalRoot.dropLast
  let target ← resolveComponents (components config.directory) canonicalRoot
  if ¬ boundary <+: target ∨ target = boundary ∨ target <+: canonicalRoot then
    throw ⟨"[web].directory may target QXP_ROOT or one of its siblings, but not a parent"⟩
  if canonicalRoot <+: target then
    match (target.drop canonicalRoot.length).head? with
    | some first =>
      if first ∈ protectedNames then
        throw ⟨"[web].directory cannot target protected path " ++ first⟩
    | none => pure ()
  checkNoSymlink fs w boundary (target.drop boundary.length)
  return target

end Lqxp
