/-!
This module contains the file system as the server uses it: what it can ask of it, and the changes it can make.
-/

namespace Lqxp

inductive IoErrorKind where
  | notFound
  | other
  deriving DecidableEq

structure IoError where
  kind : IoErrorKind
  message : String
  deriving DecidableEq

/--
The kind of file that a path names, without following a last symbolic link.
-/
inductive FileType where
  | dir
  | symlink
  | file
  deriving DecidableEq

/--
An absolute path, as the names on it from the root on.
-/
abbrev AbsolutePath := List String

def AbsolutePath.text (path : AbsolutePath) : String := "/" ++ String.intercalate "/" path

/--
The file system of a world. Paths that are not known to be absolute are texts.
-/
structure FileSystem (ω : Type) where
  canonicalize : ω → String → Except IoError AbsolutePath
  symlinkMetadata : ω → AbsolutePath → Except IoError FileType
  pathExists : ω → AbsolutePath → Bool
  isFile : ω → String → Bool
  createDirAll : AbsolutePath → ω → Except IoError Unit × ω
  removeDirAll : AbsolutePath → ω → Except IoError Unit × ω
  removeFile : AbsolutePath → ω → Except IoError Unit × ω

end Lqxp
