import ContentServer.Cache
import ContentServer.Site.Course
import ContentServer.Site.Destination
import ContentServer.Site.Library

/-!
# The site

A site answers requests.  It has a document root with files, a provider of pages and posts, the
rules and the codecs.  Two things change with every request: the cache of rendered documents and the
record of the visits to the provider.

* A *provider* is asked for a page or a post.  It gives a text, or a fault, or it breaks down in
  the middle.  What it gives may depend on the time and on all earlier visits.
* A *resource* comes from the cache if it is live there.  Otherwise the provider is visited once.
  A text that is not empty is stored and sent, an empty text or a fault is answered as a missing
  resource, and a breakdown as a failure of the server.
* A *file* is looked up below the document root.  A directory and a missing file are answered alike.
* The files may *change* from one answer to the next, and a file may grow while it is sent.  The
  site has a `Course` for that.  `answer` goes by the files as they are at first, and `answerAt` is
  what a session answers when it has given some answers before.
-/

namespace ContentServer

/-- What a provider is asked for. -/
inductive Query where
  /-- A page of a tenant, for a host. -/
  | page (host tenant page : String)
  /-- A post. -/
  | post (id : Nat)
deriving DecidableEq, Repr

/-- What a provider gives. -/
inductive Supply where
  /-- A document, or nothing if it is empty. -/
  | text (document : String)
  /-- A failure that the provider reports. -/
  | fault (cause : Fault)
  /-- The provider broke down. -/
  | breakdown
deriving DecidableEq, Repr

/-- A visit to the provider. -/
structure Visit where
  /-- When it was made. -/
  time : Time
  /-- What was asked. -/
  query : Query
  /-- What was given. -/
  supply : Supply
deriving DecidableEq, Repr

/-- A source of pages and posts: what it gives after some visits, at a time, to a query. -/
abbrev Provider := List Visit → Time → Query → Supply

/-- What a reader of documents gives: the document, or its fault. -/
def Supply.ofExcept : Except Fault String → Supply
  | .ok document => .text document
  | .error cause => .fault cause

/-- The document in a library that a query asks for. -/
def Library.find (lib : Library) (files : FileTree) : Query → Except Fault String
  | .page _ tenant page => lib.page files tenant page
  | .post id => lib.post files id

/-- The provider that reads a library. -/
def Library.provider (lib : Library) (files : FileTree) : Provider := fun _ _ query =>
  .ofExcept (lib.find files query)

/-- What a server serves. -/
structure Site where
  /-- The path below which files are served. -/
  docRoot : String
  /-- The files. -/
  files : FileTree
  /-- The source of pages and posts. -/
  provider : Provider
  /-- How requests are served. -/
  rules : Rules
  /-- The codecs for rendered documents. -/
  codecs : Codecs
  /-- What becomes of the files. -/
  course : Course := {}

namespace Site

/-- The site that serves a library and a document root from a file tree. -/
def ofLibrary (docRoot : String) (lib : Library) (rules : Rules) (codecs : Codecs)
    (files : FileTree) : Site :=
  { docRoot, files, provider := lib.provider files, rules, codecs }

/-- The site with other files below its document root. -/
def withFiles (site : Site) (files : FileTree) : Site := { site with files }

/-- What changes while a site is served. -/
structure State where
  /-- The rendered documents that are kept. -/
  cache : Cache
  /-- The visits to the provider, the first one first. -/
  visits : List Visit := []
deriving DecidableEq, Repr

/-- The query for a resource of a tenant. -/
def query (host tenant : String) : Resource → Query
  | .page name => .page host tenant name.text
  | .post id => .post id

/-- The state after a visit to the provider, and what the provider gave. -/
def visit (site : Site) (now : Time) (query : Query) (s : State) : Supply × State :=
  let supply := site.provider s.visits now query
  (supply, { s with visits := s.visits ++ [⟨now, query, supply⟩] })

/-- The response with a rendered document. -/
def rendered (site : Site) (now : Moment) (request : Request) (document : String) : Response :=
  Response.html site.codecs request now.wall document site.rules.compress

/-- Stores a document if its resource is cached. -/
def keep (site : Site) (now : Time) (resource : Resource) (key document : String) (s : State) :
    State :=
  if resource.isCached site.rules then
    { s with cache := (s.cache.set now key document site.rules.pageLife).2 }
  else s

/-- The answer from the provider, for a resource that the cache does not have. -/
def fetch (site : Site) (now : Moment) (request : Request) (tenant : String)
    (resource : Resource) (s : State) : Response × State :=
  let (supply, s) := site.visit now.clock (query request.host tenant resource) s
  match supply with
  | .breakdown => (Response.serverError request now.wall "render task failed", s)
  | .fault _ => (Response.notFound request now.wall, s)
  | .text document =>
    if document = "" then (Response.notFound request now.wall, s)
    else
      (site.rendered now request document,
        site.keep now.clock resource (resource.key tenant) document s)

/-- The answer to a request for a resource of a tenant. -/
def render (site : Site) (now : Moment) (request : Request) (tenant : String)
    (resource : Resource) (s : State) : Response × State :=
  if resource.isCached site.rules then
    let (hit, cache) := s.cache.get now.clock (resource.key tenant)
    let s := { s with cache }
    match hit with
    | some document => (site.rendered now request document, s)
    | none => site.fetch now request tenant resource s
  else site.fetch now request tenant resource s

/-- The path of a file below the document root. -/
def filePath (docRoot path : String) : String :=
  if docRoot.toList.getLast? = some '/' then String.ofList docRoot.toList.dropLast ++ path
  else docRoot ++ path

/-- The answer to a request for a file. -/
def serveFile (site : Site) (now : Moment) (request : Request) (path : String) : Response :=
  let full := filePath site.docRoot path
  match site.files.look full with
  | .ok (.file content) =>
    Response.file request now.wall content content.length (MediaType.ofPath full)
  | .ok .directory => Response.notFound request now.wall
  | .error .missing => Response.notFound request now.wall
  | .error e => Response.serverError request now.wall e.system.text

/-- The answer to a request, and the state that it leaves. -/
def answer (site : Site) (now : Moment) (request : Request) (s : State) : Response × State :=
  match request.destination with
  | .refused why => (Response.badRequest request now.wall why.message, s)
  | .nowhere => (Response.notFound request now.wall, s)
  | .file path => (site.serveFile now request path, s)
  | .resource resource =>
    site.render now request (site.rules.tenantFor request.host) resource s

/-- The responses to a row of requests, each answered at its moment from the same files, and the
state that they leave. -/
def answerAll (site : Site) : List (Moment × Request) → State → List Response × State
  | [], s => ([], s)
  | (now, request) :: requests, s =>
    let (response, s) := site.answer now request s
    let (responses, s) := answerAll site requests s
    (response :: responses, s)

/-! ## Answers from files that change -/

/-- The site as an answer finds it after `n` others. -/
def found (site : Site) (n : Nat) : Site := site.withFiles (site.course.files n site.files)

/-- The answer to a request after `n` others, as it is written, and the state that it leaves. -/
def answerAt (site : Site) (n : Nat) (now : Moment) (request : Request) (s : State) :
    Response × State :=
  let (response, s) := (site.found n).answer now request s
  (response.grown (site.course.growth n), s)

/-- The responses to a row of requests after `n` others, and the state that they leave. -/
def answerFrom (site : Site) (n : Nat) : List (Moment × Request) → State → List Response × State
  | [], s => ([], s)
  | (now, request) :: requests, s =>
    let (response, s) := site.answerAt n now request s
    let (responses, s) := answerFrom site (n + 1) requests s
    (response :: responses, s)

end Site

end ContentServer
