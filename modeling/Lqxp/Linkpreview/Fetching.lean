import Lqxp.Linkpreview.Pages
import Lqxp.Prog.Exec

/-!
This module contains how the previews of links are fetched and kept for a while. However many are fetched at once,
requests go to public addresses only, and what is kept is not older than it may be.
-/

namespace Lqxp

namespace Fetching

/--
What a server answers. The body comes in chunks and breaks off at the first that is missing.
-/
structure Response where
  success : Bool
  contentType : Option String := none
  contentLength : Option Nat := none
  chunks : List (Option (List UInt8)) := []

/--
A redirect that is not followed is an answer without success.
-/
def Response.moved : Response := { success := false }

inductive Answer where
  | failed
  | redirect (location : String)
  | response (resp : Response)

/--
What a step sees of the world: the clock, in nanoseconds, what names stand for at the moment, and what a server
answers.
-/
structure FetchEnv where
  instant : Nat := 0
  resolve : String → Option (List SocketAddr) := fun _ => none
  clientBuilds : Bool := true
  answer : Answer := .failed

/--
The previews that are kept, with the time at which each has been fetched.
-/
structure Cache where
  entries : List (String × Nat × Option LinkPreview) := []

inductive FetchLabel where
  | quiet
  /-- A request is sent to an address, and answered. -/
  | requested (url : Link) (ip : IpAddr) (answer : Answer)
  /-- An answer from the cache. -/
  | hit (key : String) (preview : Option LinkPreview)
  | stored (key : String) (preview : Option LinkPreview)

abbrev Fetch (α : Type) := Prog FetchEnv Cache FetchLabel α

section Impl

variable (parsers : Parsers)

def FetchEnv.network (e : FetchEnv) : Network where
  parseUrl raw := (parsers.parseUrl raw).map Link.toUrl
  toSocketAddrs target :=
    match parsers.socketAddr target with
    | some addr => some [addr]
    | none => e.resolve target

/--
A link that may be fetched, with the address that it is fixed to.
-/
def FetchEnv.validate (e : FetchEnv) (raw : String) : Option (Link × SocketAddr) := do
  let (_, pinnedAddr) ← validateAndPinUrl (e.network parsers) raw
  let parsed ← parsers.parseUrl raw
  return (parsed, pinnedAddr)

def validate (raw : String) : Fetch (Option (Link × SocketAddr)) :=
  .atom fun e s => (e.validate parsers raw, .quiet, s)

/--
The name for which a client uses an address instead of resolving it.
-/
structure Pin where
  host : String
  addr : SocketAddr

def Pin.connect (pin : Pin) (e : FetchEnv) (url : Link) : Option IpAddr := do
  let host ← url.hostStr
  match parsers.socketAddr (url.target host) with
  | some addr => some addr.ip
  | none =>
    if host = pin.host then
      some pin.addr.ip
    else
      let addrs ← e.resolve (url.target host)
      return (← addrs.head?).ip

def sendRequest (pin : Pin) (url : Link) : Fetch Answer :=
  .atom fun e s =>
    match pin.connect parsers e url with
    | some ip => (e.answer, .requested url ip e.answer, s)
    | none => (.failed, .quiet, s)

def sameHost (previous : List Link) (url : Link) : Bool :=
  match (previous.getLast?.bind (·.hostStr)), url.hostStr with
  | some a, some b => Text.eqIgnoreAsciiCase a b
  | _, _ => false

def allowsRedirect (previous : List Link) (url : Link) : Fetch Bool :=
  .atom fun e s => (sameHost previous url && (e.validate parsers url.text).isSome, .quiet, s)

/--
Send a request, and others as long as redirects may be followed. The answer comes with the link that it is for.
-/
def send (pin : Pin) : Nat → List Link → Link → Fetch (Option (Response × Link))
  | 0, _, _ => return none
  | n + 1, previous, url => do
    match ← sendRequest parsers pin url with
    | .failed => return none
    | .response resp => return some (resp, url)
    | .redirect location =>
      match parsers.join url location with
      | none => return some (.moved, url)
      | some next =>
        let previous := previous ++ [url]
        if 3 ≤ previous.length then
          return some (.moved, url)
        else if ← allowsRedirect parsers previous next then
          send pin n previous next
        else
          return some (.moved, url)

def maxHtmlBytes : Nat := 256 * 1024

def cacheTtl : Nat := 5 * 60 * 1000000000

def maxCacheEntries : Nat := 256

namespace Cache

def retainFresh (cache : Cache) (now : Nat) : Cache where
  entries := cache.entries.filter fun entry => now - entry.2.1 < cacheTtl

def find? (cache : Cache) (url : String) : Option (Option LinkPreview) :=
  (cache.entries.find? (·.1 = url)).map (·.2.2)

def put (cache : Cache) (url : String) (preview : Option LinkPreview) (now : Nat) : Cache where
  entries :=
    let entries := (cache.retainFresh now).entries
    let entries := if maxCacheEntries ≤ entries.length then entries.tail else entries
    entries ++ [(url, now, preview)]

end Cache

def clientBuilds : Fetch Bool := .atom fun e s => (e.clientBuilds, .quiet, s)

/--
The first part of a page, unless it breaks off before.
-/
def readHtml : List (Option (List UInt8)) → List UInt8 → Option (List UInt8)
  | [], buf => some (buf.take maxHtmlBytes)
  | none :: _, _ => none
  | some chunk :: chunks, buf =>
    let buf := buf ++ chunk
    if maxHtmlBytes ≤ buf.length then some (buf.take maxHtmlBytes) else readHtml chunks buf

/--
The head of a response decides whether its body is read.
-/
def Response.isPage (resp : Response) : Bool :=
  resp.success
    && !(resp.contentType.any fun contentType =>
      let contentType := Text.toAsciiLower contentType
      !Text.contains contentType "text/html" && !Text.contains contentType "application/xhtml")
    && !(resp.contentLength.any (maxHtmlBytes * 2 < ·))

end Impl

section Steps

variable (parsers : Parsers)

/--
What a fetch remembers: the text that it has been asked for, and the links that it has sent requests for, each
with the answer.
-/
structure FetchMemory where
  rawUrl : String
  requests : List (Link × Answer) := []

def FetchMemory.next (g : FetchMemory) : FetchLabel → FetchMemory
  | .requested url _ answer => { g with requests := g.requests ++ [(url, answer)] }
  | _ => g

/--
A preview has been read off the page that the last request was answered with, and is not too long.
-/
structure ReadOff (resp : Response) (final : Link) (page : LinkPreview) : Prop where
  isPage : resp.isPage = true
  parsed : ∃ buf, readHtml resp.chunks [] = some buf
    ∧ parseOg parsers (parsers.fromUtf8Lossy buf) final = some page
  bounded : Bounded final page

def FoundLast (g : FetchMemory) (found : Option LinkPreview) : Prop :=
  ∀ page, found = some page →
    ∃ final resp, g.requests.getLast? = some (final, .response resp) ∧ ReadOff parsers resp final page

def Link.IsWeb (url : Link) : Prop := url.scheme = "http" ∨ url.scheme = "https"

/--
What is relied on of the parser of links: the text of a link that has been joined is that link, and hosts on the web
are in small letters.
-/
structure Parsers.Sound : Prop where
  parseUrl_join {base url : Link} {location : String} :
    parsers.join base location = some url → parsers.parseUrl url.text = some url
  lower {raw host : String} {url : Link} : parsers.parseUrl raw = some url → url.IsWeb → url.hostStr = some host →
    Text.toAsciiLower host = host

/--
What a single step of a fetch can do.
-/
def Lawful (g : FetchMemory) (e : FetchEnv) (s : Cache) (l : FetchLabel) (s' : Cache) : Prop :=
  match l with
  | .quiet => s'.entries.Sublist s.entries
  | .requested url ip answer =>
    s' = s ∧ answer = e.answer ∧ g.requests.length < 3 ∧ url.IsWeb ∧ isPublicIp ip
      ∧ ∀ request ∈ g.requests, request.1.hostStr = url.hostStr
  | .hit key preview =>
    s'.entries.Sublist s.entries ∧ ∃ t, (key, t, preview) ∈ s.entries ∧ e.instant - t < cacheTtl
  | .stored key preview =>
    s' = s.put key preview e.instant ∧ (∃ url, parsers.parseUrl g.rawUrl = some url ∧ url.text = key)
      ∧ FoundLast parsers g preview

abbrev Fetches {α : Type} (post : α → FetchMemory → Prop) (p : Fetch α) (g : FetchMemory) : Prop :=
  Prog.Spec FetchMemory.next (Lawful parsers) post p g

end Steps

section Validation

variable {parsers : Parsers} {e : FetchEnv} {pin : Pin} {url : Link}

/--
A link on the web. If its host is an address then a public one.
-/
structure Cleared (parsers : Parsers) (url : Link) : Prop where
  isWeb : url.IsWeb
  isPublic {host : String} {addr : SocketAddr} : url.hostStr = some host →
    parsers.socketAddr (url.target host) = some addr → isPublicIp addr.ip

/--
An address that a client may be given: a public one, for a host in small letters.
-/
structure Pin.Safe (pin : Pin) : Prop where
  isPublic : isPublicIp pin.addr.ip
  lower : Text.toAsciiLower pin.host = pin.host

theorem Pin.Safe.connect (hpin : pin.Safe) (hurl : Cleared parsers url) (hhost : url.hostStr = some pin.host)
    {ip : IpAddr} (h : pin.connect parsers e url = some ip) : isPublicIp ip := by
  rw [Pin.connect, hhost, Option.bind_eq_bind, Option.bind_some] at h
  split at h
  next addr haddr =>
    obtain rfl := Option.some.inj h
    exact hurl.isPublic hhost haddr
  next =>
    rw [if_pos rfl] at h
    obtain rfl := Option.some.inj h
    exact hpin.isPublic

end Validation

section Specs

variable {parsers : Parsers} {g : FetchMemory} {pin : Pin} {α β : Type}

theorem Fetches.bind {Q : α → FetchMemory → Prop} {R : β → FetchMemory → Prop} {p : Fetch α} {f : α → Fetch β}
    (hp : Fetches parsers Q p g) (hf : ∀ a g', Q a g' → Fetches parsers R (f a) g')
    : Fetches parsers R (p >>= f) g :=
  Prog.Spec.bind_iff.2 (hp.mono hf)

/--
What has to hold when a request is sent: it is among the first three, and they all go to the host of the pin.
-/
structure Ready (parsers : Parsers) (pin : Pin) (g : FetchMemory) (url : Link) : Prop where
  cleared : Cleared parsers url
  host : url.hostStr = some pin.host
  few : g.requests.length < 3
  hosts : ∀ request ∈ g.requests, request.1.hostStr = some pin.host

end Specs

section Runs

variable {parsers : Parsers} {tr : List (Prog.Event String FetchEnv FetchLabel FetchMemory)}
  {p : Prog.Pool FetchEnv Cache FetchLabel FetchMemory (Option LinkPreview)}

/--
What is kept has been stored, at the time that is kept with it.
-/
def Traced (tr : List (Prog.Event String FetchEnv FetchLabel FetchMemory)) (s : Cache) : Prop :=
  ∀ key t preview, (key, t, preview) ∈ s.entries →
    ∃ i g e, Prog.Event.act i g e (.stored key preview) ∈ tr ∧ e.instant = t

theorem Traced.append {s s' : Cache} (h : Traced tr s) (hkept : s'.entries.Sublist s.entries)
    (ev : Prog.Event String FetchEnv FetchLabel FetchMemory) : Traced (tr ++ [ev]) s' := by
  intro key t preview hmem
  obtain ⟨i, g, e, hstored, ht⟩ := h key t preview (hkept.subset hmem)
  exact ⟨i, g, e, List.mem_append_left _ hstored, ht⟩

section Example

end Example

end Runs

end Fetching

end Lqxp
