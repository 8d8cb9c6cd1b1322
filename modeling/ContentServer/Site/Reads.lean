import ContentServer.Site

/-!
# What an answer reads

An answer to a request depends on few files: on the one that the request names, or on the body and
the layout of the document that it asks for.  `Site.reads` lists their paths.

`answer_congr` says that two file trees in which these paths lead to the same give the same answer.
So a server need not know the whole tree, only what stands at the places of these paths.
-/

namespace ContentServer

/-- The paths of a document: its body, its header and its footer. -/
def Library.documentPaths (bodyPath layout : String) : List String :=
  [bodyPath, FileTree.join layout "header.html", FileTree.join layout "footer.html"]

/-- The paths that what a library gives to a query can depend on. -/
def Library.paths (lib : Library) : Query → List String
  | .page _ tenant page => documentPaths (lib.pagePath tenant page) (lib.pageLayout tenant)
  | .post id => documentPaths (lib.postPath id) lib.postLayout

namespace Site

/-- The paths that the answer to a request can depend on. -/
def reads (docRoot : String) (lib : Library) (rules : Rules) (request : Request) : List String :=
  match request.destination with
  | .refused _ => []
  | .nowhere => []
  | .file path => [filePath docRoot path]
  | .resource resource =>
    lib.paths (query request.host (rules.tenantFor request.host) resource)

end Site

/-! ## That an answer reads nothing else -/

section Congruence

variable {t u : FileTree}

theorem FileTree.look_congr {path : String} (h : t.find path = u.find path) :
    t.look path = u.look path := by
  rw [look, look, h]

theorem FileTree.readText_congr {path : String} (h : t.find path = u.find path) :
    t.readText path = u.readText path := by
  rw [readText, readText, look_congr h]

theorem Library.readOptional_congr {path : String} (h : t.readText path = u.readText path) :
    readOptional t path = readOptional u path := by
  rw [readOptional, readOptional, h]

theorem Library.document_congr {bodyPath layout : String}
    (h : ∀ path ∈ documentPaths bodyPath layout, t.readText path = u.readText path) :
    document t bodyPath layout = document u bodyPath layout := by
  rw [document, document, readOptional_congr (h bodyPath (by simp [documentPaths])),
    readOptional_congr (h (FileTree.join layout "header.html") (by simp [documentPaths])),
    readOptional_congr (h (FileTree.join layout "footer.html") (by simp [documentPaths]))]

/-- What a library gives only depends on the texts of its files. -/
theorem Library.find_congr (lib : Library) (query : Query)
    (h : ∀ path ∈ lib.paths query, t.readText path = u.readText path) :
    lib.find t query = lib.find u query := by
  cases query with
  | page host tenant page =>
    have hd : document t (lib.pagePath tenant page) (lib.pageLayout tenant)
      = document u (lib.pagePath tenant page) (lib.pageLayout tenant) := document_congr h
    rw [find, find, Library.page, Library.page, hd]
  | post id =>
    have hd : document t (lib.postPath id) lib.postLayout
      = document u (lib.postPath id) lib.postLayout := document_congr h
    rw [find, find, Library.post, Library.post, hd]

namespace Site

variable (docRoot : String) (lib : Library) (rules : Rules) (codecs : Codecs)

theorem visit_congr (now : Time) (query : Query) (s : State)
    (h : ∀ path ∈ lib.paths query, t.find path = u.find path) :
    (ofLibrary docRoot lib rules codecs t).visit now query s
      = (ofLibrary docRoot lib rules codecs u).visit now query s := by
  unfold visit
  dsimp only [ofLibrary, Library.provider]
  rw [lib.find_congr query fun path hp => FileTree.readText_congr (h path hp)]

theorem fetch_congr (now : Moment) (request : Request) (tenant : String) (resource : Resource)
    (s : State)
    (h : ∀ path ∈ lib.paths (query request.host tenant resource), t.find path = u.find path) :
    (ofLibrary docRoot lib rules codecs t).fetch now request tenant resource s
      = (ofLibrary docRoot lib rules codecs u).fetch now request tenant resource s := by
  unfold fetch
  rw [visit_congr docRoot lib rules codecs now.clock _ s h]
  rfl

theorem render_congr (now : Moment) (request : Request) (tenant : String) (resource : Resource)
    (s : State)
    (h : ∀ path ∈ lib.paths (query request.host tenant resource), t.find path = u.find path) :
    (ofLibrary docRoot lib rules codecs t).render now request tenant resource s
      = (ofLibrary docRoot lib rules codecs u).render now request tenant resource s := by
  unfold render
  simp only [fetch_congr docRoot lib rules codecs now request tenant resource _ h]
  rfl

theorem serveFile_congr (now : Moment) (request : Request) (path : String)
    (h : t.find (filePath docRoot path) = u.find (filePath docRoot path)) :
    (ofLibrary docRoot lib rules codecs t).serveFile now request path
      = (ofLibrary docRoot lib rules codecs u).serveFile now request path := by
  unfold serveFile
  dsimp only [ofLibrary]
  rw [FileTree.look_congr h]

/-- An answer only depends on what its paths lead to. -/
theorem answer_congr (now : Moment) (request : Request) (s : State)
    (h : ∀ path ∈ reads docRoot lib rules request, t.find path = u.find path) :
    (ofLibrary docRoot lib rules codecs t).answer now request s
      = (ofLibrary docRoot lib rules codecs u).answer now request s := by
  unfold reads at h
  unfold answer
  cases hd : request.destination with
  | refused why => rfl
  | nowhere => rfl
  | file path =>
    simp only [hd] at h
    have := h (filePath docRoot path) (List.mem_singleton.mpr rfl)
    exact congrArg (·, s) (serveFile_congr docRoot lib rules codecs now request path this)
  | resource resource =>
    simp only [hd] at h
    exact render_congr docRoot lib rules codecs now request _ resource s h

end Site

end Congruence

end ContentServer
