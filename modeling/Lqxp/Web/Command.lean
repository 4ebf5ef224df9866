import Lqxp.Core.Files
import Lqxp.Data.Text

/-!
This module contains the commands that the preparation of the web client runs, and its errors.
-/

namespace Lqxp.Web

structure CommandRequest where
  program : String
  args : List String
  cwd : String
  deriving DecidableEq

structure CommandOutput where
  status : Option Int
  stdout : String
  stderr : String
  deriving DecidableEq

def CommandOutput.success (output : CommandOutput) : Bool := output.status = some 0

/--
The world of the server: its files, and its other programs, which may do anything to the world.
-/
structure Host (ω : Type) extends FileSystem ω where
  run : CommandRequest → ω → Except IoError CommandOutput × ω

/--
Replace the credentials in the addresses of a text, which are what stands between `https://` and the first of
`/`, `@` and white space, if this is an `@`.
-/
def sanitizeChars : Nat → List Char → List Char
  | 0, chars => chars
  | _ + 1, [] => []
  | n + 1, c :: chars =>
    let scheme := "https://".toList
    let rest := (c :: chars).drop scheme.length
    let credentials := rest.takeWhile fun c => !(c = '/' || c = '@' || Text.isWhitespace c)
    if scheme.isPrefixOf (c :: chars) && !credentials.isEmpty && (rest.drop credentials.length).head? = some '@' then
      "https://***@".toList ++ sanitizeChars n (rest.drop (credentials.length + 1))
    else
      c :: sanitizeChars n chars

def sanitizeRepoUrl (raw : String) : String := String.ofList (sanitizeChars raw.toList.length raw.toList)

def CommandRequest.sanitizedDescription (request : CommandRequest) : String :=
  String.intercalate " " (sanitizeRepoUrl request.program :: request.args.map sanitizeRepoUrl)

inductive WebFailureKind where
  | localCheckout
  | external
  | system
  | configuration
  | source
  | build
  | output
  deriving DecidableEq

structure WebError where
  kind : WebFailureKind
  stage : String
  command : Option String
  status : Option Int
  detail : String
  deriving DecidableEq

def WebError.new (kind : WebFailureKind) (stage : String) (request : Option CommandRequest) (status : Option Int)
    (detail : String) : WebError :=
  { kind, stage, status
    command := request.map CommandRequest.sanitizedDescription
    detail := sanitizeRepoUrl detail }

end Lqxp.Web
