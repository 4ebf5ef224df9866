import Lqxp.Core.Config
import Lqxp.Core.Config.TurnServers
import Lqxp.Data.JsonReader

/-!
This module contains the checks that the route of the uploaded files makes on the path of a request, and the settings
that the page of the web client gets in a script of its own. What the server escapes in their text is read as before,
and cannot end the script.
-/

namespace Lqxp

/--
The last component of a path, unless it is no name.
-/
def fileName (path : String) : Option String :=
  match (components path).getLast? with
  | some (.normal name) => some name
  | _ => none

def isAsciiHexDigit (c : Char) : Bool :=
  ('0' ≤ c && c ≤ '9') || ('a' ≤ c && c ≤ 'f') || ('A' ≤ c && c ≤ 'F')

def isValidUploadFileId (rawPath : String) : Bool :=
  let fileName := (fileName (Text.trimStartMatches (· = '/') rawPath)).getD ""
  let pieces := Text.splitOn '.' fileName
  let stem := pieces.head?.getD ""
  if Text.len stem ≠ 32 || !stem.toList.all isAsciiHexDigit then
    false
  else
    match pieces[1]? with
    | none => true
    | some ext => ext ≠ "" && Text.len ext ≤ 10 && ext.toList.all Text.isAsciiAlphanumeric

/--
The names that a path leads down below a directory.
-/
def safeChildPath (rawPath : String) : Option (List String) :=
  (components (Text.trimStartMatches (· = '/') rawPath)).mapM fun
    | .normal name => some name
    | _ => none

/--
Where the route looks for an uploaded file, below the upload directory.
-/
def uploadAssetPath (rawPath : String) : Option (List String) :=
  (safeChildPath rawPath).filter fun _ => isValidUploadFileId rawPath

end Lqxp

namespace Lqxp

def escapeForInlineScript (json : String) : String :=
  let json := Text.replace '<' "\\u003c" json
  let json := Text.replace '>' "\\u003e" json
  let json := Text.replace '&' "\\u0026" json
  let json := Text.replace (Char.ofNat 0x2028) "\\u2028" json
  Text.replace (Char.ofNat 0x2029) "\\u2029" json

section Escaping

def inlineUnsafe : List Char := ['<', '>', '&', Char.ofNat 0x2028, Char.ofNat 0x2029]

def inlineCode (c : Char) : List Char :=
  if c = '<' then "\\u003c".toList
  else if c = '>' then "\\u003e".toList
  else if c = '&' then "\\u0026".toList
  else if c = Char.ofNat 0x2028 then "\\u2028".toList
  else if c = Char.ofNat 0x2029 then "\\u2029".toList
  else [c]

theorem inlineCode_of_not_mem {c : Char} (h : c ∉ inlineUnsafe) : inlineCode c = [c] := by
  simp only [inlineUnsafe, List.mem_cons, List.not_mem_nil, or_false, not_or] at h
  simp only [inlineCode, h, if_false]

theorem toList_escapeForInlineScript (json : String)
    : (escapeForInlineScript json).toList = Json.respell inlineCode json.toList := by
  simp only [escapeForInlineScript, Text.toList_replace, List.flatMap_assoc, Json.respell]
  refine List.flatMap_congr fun c _ => ?_
  by_cases hc : c ∈ inlineUnsafe
  . have hall : (inlineUnsafe.all fun c => (if c = '<' then "\\u003c".toList else [c]).flatMap (fun c =>
        (if c = '>' then "\\u003e".toList else [c]).flatMap fun c =>
        (if c = '&' then "\\u0026".toList else [c]).flatMap fun c =>
        (if c = Char.ofNat 0x2028 then "\\u2028".toList else [c]).flatMap fun c =>
        if c = Char.ofNat 0x2029 then "\\u2029".toList else [c]) = inlineCode c) = true := by decide +kernel
    exact of_decide_eq_true (List.all_eq_true.1 hall c hc)
  . rw [inlineCode_of_not_mem hc]
    simp only [inlineUnsafe, List.mem_cons, List.not_mem_nil, or_false, not_or] at hc
    simp only [hc, if_false, List.flatMap_cons, List.flatMap_nil, List.append_nil]

theorem spelling_inlineCode : Json.Spelling inlineCode where
  keeps c hc := by
    refine inlineCode_of_not_mem fun hmem => ?_
    have hall : (inlineUnsafe.all fun c => !Json.isSyntaxChar c) = true := by decide +kernel
    have := List.all_eq_true.1 hall c hmem
    rw [hc] at this
    contradiction
  spells c := by
    by_cases hc : c ∈ inlineUnsafe
    . have hall : (inlineUnsafe.all fun c => (inlineCode c).head? = some '\\'
          && Json.readEscape (inlineCode c).tail == some (c, [])) = true := by decide +kernel
      have hread := List.all_eq_true.1 hall c hc
      rw [Bool.and_eq_true, decide_eq_true_eq, beq_iff_eq] at hread
      obtain ⟨word, hword⟩ := List.head?_eq_some_iff.1 hread.1
      rw [hword, List.tail_cons] at hread
      exact .inr ⟨word, hword, hread.2⟩
    . exact .inl (inlineCode_of_not_mem hc)

theorem not_mem_inlineUnsafe {json : String} {c : Char} (h : c ∈ (escapeForInlineScript json).toList)
    : c ∉ inlineUnsafe := by
  rw [toList_escapeForInlineScript] at h
  obtain ⟨d, -, hc⟩ := List.mem_flatMap.1 h
  by_cases hd : d ∈ inlineUnsafe
  . have hall : (inlineUnsafe.all fun d => (inlineCode d).all fun c => !inlineUnsafe.contains c) = true := by
      decide +kernel
    have := List.all_eq_true.1 (List.all_eq_true.1 hall d hd) c hc
    simpa using this
  . rw [inlineCode_of_not_mem hd, List.mem_singleton] at hc
    rwa [hc]

theorem parse_escapeForInlineScript {json : String} {value : Json} (h : Json.parse json = some value)
    : Json.parse (escapeForInlineScript json) = some value := by
  rw [← String.ofList_toList (s := escapeForInlineScript json), toList_escapeForInlineScript]
  exact spelling_inlineCode.parse_respell h

/--
The escaped text of a value contains none of the unsafe characters and is read as the same value.
-/
theorem escapeForInlineScript_render {value : Json} (h : value.Writable)
    : (∀ c ∈ inlineUnsafe, c ∉ (escapeForInlineScript value.render).toList)
        ∧ Json.parse value.render = some value
        ∧ Json.parse (escapeForInlineScript value.render) = some value := by
  have hparse := Json.parse_render h
  exact ⟨fun c hunsafe hc => not_mem_inlineUnsafe hc hunsafe, hparse, parse_escapeForInlineScript hparse⟩

/--
The label of a server that would end the script.
-/
theorem escapeForInlineScript_render_label
    : escapeForInlineScript (Json.obj [("label", .str "</script>")]).render
        = "\x7b\"label\":\"\\u003c/script\\u003e\"\x7d"
        ∧ Json.parse (escapeForInlineScript (Json.obj [("label", .str "</script>")]).render)
          = some (.obj [("label", .str "</script>")]) := by
  refine ⟨by decide +kernel, (escapeForInlineScript_render (.obj fun field hfield => ?_)).2.2⟩
  rw [List.mem_singleton.1 hfield]
  exact .str _

end Escaping

section Page

variable (x : Externals)

/--
What the page shows of a server: nothing of its account.
-/
def TurnServer.publicJson (server : TurnServer) : Json :=
  .obj [("id", .str server.id), ("label", .str server.label), ("hint", .str server.hint),
    ("urls", .arr (server.urls.map .str)), ("username", .str ""), ("credential", .str "")]

def wsUrl (wsOrigin : String) : String :=
  let behind (scheme : String) :=
    String.ofList (stripPieces scheme.toList wsOrigin.toList.length wsOrigin.toList)
  if wsOrigin = "" then ""
  else if Text.startsWith wsOrigin "https://" then "wss://" ++ behind "https://" ++ "/ws"
  else if Text.startsWith wsOrigin "http://" then "ws://" ++ behind "http://" ++ "/ws"
  else "wss://" ++ wsOrigin ++ "/ws"

def runtimeConfigPayload (rtc : RtcConfig) (publicDomain : String) (latestVersion origin : Option String) : Json :=
  let publicDomain := Text.trim publicDomain
  let wsOrigin := origin.getD (if publicDomain = "" then "" else "https://" ++ publicDomain)
  .obj [
    ("rtc", .obj [
      ("relayOnly", .bool rtc.relayOnly),
      ("servers", .arr ((rtc.resolvedServers x).map (·.publicJson))),
      ("defaultTurnServer", .str (rtc.defaultServer x)),
      ("turnUrls", .arr (rtc.turnUrls.map .str)),
      ("turnUsername", .str ""),
      ("turnCredential", .str ""),
      ("callsEnabled", .bool true),
      ("callsUnavailableReason", .str "")]),
    ("api", .obj [
      ("origin", .str (origin.getD "")),
      ("publicDomain", .str publicDomain),
      ("wsUrl", .str (wsUrl wsOrigin))]),
    ("latestVersion", .str (Text.trim (latestVersion.getD "")))]

def bootstrap (payload : Json) : String :=
  "<script>window.__QXP_RUNTIME__ = " ++ escapeForInlineScript payload.render ++ ";</script>"

theorem writable_obj {fields : List (String × Json)}
    : (Json.obj fields).Writable ↔ ∀ field ∈ fields, field.2.Writable :=
  ⟨fun h => by cases h; assumption, .obj⟩

theorem writable_strs (texts : List String) : (Json.arr (texts.map .str)).Writable := by
  refine .arr fun item hitem => ?_
  obtain ⟨text, -, rfl⟩ := List.mem_map.1 hitem
  exact .str text

theorem TurnServer.writable_publicJson (server : TurnServer) : server.publicJson.Writable := by
  simp only [publicJson, writable_obj, List.forall_mem_cons, List.not_mem_nil, false_implies, implies_true, and_true]
  exact ⟨.str _, .str _, .str _, writable_strs _, .str _, .str _⟩

theorem writable_runtimeConfigPayload (rtc : RtcConfig) (publicDomain : String) (latestVersion origin : Option String)
    : (runtimeConfigPayload x rtc publicDomain latestVersion origin).Writable := by
  simp only [runtimeConfigPayload, writable_obj, List.forall_mem_cons, List.not_mem_nil, false_implies, implies_true,
    and_true]
  refine ⟨⟨.bool _, .arr fun item hitem => ?_, .str _, writable_strs _, .str _, .str _, .bool _, .str _⟩,
    ⟨.str _, .str _, .str _⟩, .str _⟩
  obtain ⟨server, -, rfl⟩ := List.mem_map.1 hitem
  exact server.writable_publicJson

theorem bootstrap_runtimeConfigPayload (rtc : RtcConfig) (publicDomain : String) (latestVersion origin : Option String)
    : let payload := runtimeConfigPayload x rtc publicDomain latestVersion origin
      ∃ text, bootstrap payload = "<script>window.__QXP_RUNTIME__ = " ++ text ++ ";</script>"
        ∧ '<' ∉ text.toList
        ∧ Json.parse text = some payload := by
  intro payload
  refine ⟨escapeForInlineScript payload.render, rfl, fun hmem => not_mem_inlineUnsafe hmem (.head _), ?_⟩
  exact parse_escapeForInlineScript <| Json.parse_render (writable_runtimeConfigPayload x rtc publicDomain latestVersion origin)

end Page

end Lqxp
