import ContentServer.Codec.Stored
import ContentServer.Proofs.Site.CacheKeys
import ContentServer.Site

/-!
# Caching is transparent

How large the cache is, how long it keeps a document and what it keeps are choices of the operator.
A client cannot see them as long as the provider is *steady*, that is, gives the same page to the
same tenant and the same post every time.  The provider that reads a library is steady.

Behind this is an invariant of the cache.  A cache is *faithful* if all that it holds under the key
of a resource is the document that the provider gives for this resource and tenant.  It matters
that keys of different resources differ, that an empty document and a failure are never stored, and
that a document is stored as it is, before it is encoded for a client.

* A faithful cache stays faithful (`answer_faithful`), and the answer from it is the one that the
  provider would give (`answer_eq_direct`).
* So the responses to a row of requests do not depend on the cache at all
  (`answerAll_eq_map_direct`), and `responses_withCaching` follows.
-/

namespace ContentServer

/-! ## Steady providers -/

/-- What a provider gives depends on the tenant and the page, or on the number of the post, and on
nothing else. -/
structure Provider.IsSteady (provider : Provider) : Prop where
  /-- A page does not depend on the past, the time or the host. -/
  page : ∀ (visits visits' : List Visit) (time time' : Time) (host host' tenant page : String),
    provider visits time (.page host tenant page) = provider visits' time' (.page host' tenant page)
  /-- A post does not depend on the past or the time. -/
  post : ∀ (visits visits' : List Visit) (time time' : Time) (id : Nat),
    provider visits time (.post id) = provider visits' time' (.post id)

/-- A library in files that do not change is steady. -/
theorem Library.provider_isSteady (lib : Library) (files : FileTree) :
    (lib.provider files).IsSteady where
  page _ _ _ _ _ _ _ _ := rfl
  post _ _ _ _ _ := rfl

namespace Site

/-! ## Answers without a cache -/

/-- What the provider gives for a resource of a tenant to the first visit of all. -/
def supply (site : Site) (tenant : String) (resource : Resource) : Supply :=
  site.provider [] 0 (query "" tenant resource)

/-- The response to a request for a resource that the provider has just given. -/
def respond (site : Site) (now : Moment) (request : Request) : Supply → Response
  | .breakdown => Response.serverError request now.wall "render task failed"
  | .fault _ => Response.notFound request now.wall
  | .text document =>
    if document = "" then Response.notFound request now.wall
    else site.rendered now request document

/-- The response to a request if nothing is kept. -/
def direct (site : Site) (now : Moment) (request : Request) : Response :=
  match request.destination with
  | .refused why => Response.badRequest request now.wall why.message
  | .nowhere => Response.notFound request now.wall
  | .file path => site.serveFile now request path
  | .resource resource =>
    site.respond now request (site.supply (site.rules.tenantFor request.host) resource)

variable {site : Site}

theorem provider_eq_supply (hsteady : site.provider.IsSteady) (visits : List Visit) (time : Time)
    (host tenant : String) (resource : Resource) :
    site.provider visits time (query host tenant resource) = site.supply tenant resource := by
  cases resource with
  | page name => exact hsteady.page _ _ _ _ _ _ _ _
  | post id => exact hsteady.post _ _ _ _ _

/-! ## Faithful caches -/

/-- Whatever a cache holds under the key of a resource is the document that the provider gives. -/
def Faithful (site : Site) (c : Cache) : Prop :=
  ∀ e ∈ c.entries, ∀ tenant resource, e.key = Resource.key tenant resource →
    site.supply tenant resource = .text e.value ∧ e.value ≠ ""

theorem faithful_empty (site : Site) (capacity : Nat) : site.Faithful ⟨capacity, []⟩ := by
  intro e he
  cases he

/-- A look-up keeps a cache faithful. -/
theorem Faithful.get {c : Cache} (h : site.Faithful c) (now : Time) (key : String) :
    site.Faithful (c.get now key).2 :=
  fun e he => h e (Cache.mem_of_mem_get he)

/-- Storing what the provider gives keeps a cache faithful.  No other resource has the key. -/
theorem Faithful.set {c : Cache} (h : site.Faithful c) {tenant document : String}
    {resource : Resource} (hsupply : site.supply tenant resource = .text document)
    (hne : document ≠ "") (now : Time) (life : Nat) :
    site.Faithful (c.set now (resource.key tenant) document life).2 := by
  intro e he tenant' resource' hkey
  rcases Cache.mem_of_mem_set he with hold | rfl
  · exact h e hold tenant' resource' hkey
  · obtain ⟨rfl, rfl⟩ := Resource.key_inj hkey
    exact ⟨hsupply, hne⟩

/-! ## Answers with a cache -/

/-- The answer from the provider is the direct one, and what it stores is faithful. -/
theorem fetch_faithful (hsteady : site.provider.IsSteady) (now : Moment) (request : Request)
    (tenant : String) (resource : Resource) {s : State} (h : site.Faithful s.cache) :
    (site.fetch now request tenant resource s).1
        = site.respond now request (site.supply tenant resource) ∧
      site.Faithful (site.fetch now request tenant resource s).2.cache := by
  rw [fetch, visit]
  dsimp only
  rw [provider_eq_supply hsteady]
  cases hsupply : site.supply tenant resource with
  | breakdown => exact ⟨rfl, h⟩
  | fault cause => exact ⟨rfl, h⟩
  | text document =>
    dsimp only [respond]
    by_cases hne : document = ""
    · rw [if_pos hne, if_pos hne]
      exact ⟨rfl, h⟩
    · rw [if_neg hne, if_neg hne]
      refine ⟨rfl, ?_⟩
      rw [keep]
      split
      · exact h.set hsupply hne now.clock site.rules.pageLife
      · exact h

/-- The answer to a request for a resource is the direct one, whether the cache has it or not. -/
theorem render_faithful (hsteady : site.provider.IsSteady) (now : Moment) (request : Request)
    (tenant : String) (resource : Resource) {s : State} (h : site.Faithful s.cache) :
    (site.render now request tenant resource s).1
        = site.respond now request (site.supply tenant resource) ∧
      site.Faithful (site.render now request tenant resource s).2.cache := by
  rw [render]
  split
  · have hget := h.get now.clock (resource.key tenant)
    cases hhit : (s.cache.get now.clock (resource.key tenant)).1 with
    | none =>
      simp only [hhit]
      exact fetch_faithful hsteady now request tenant resource hget
    | some document =>
      simp only [hhit]
      obtain ⟨e, he, hkey, rfl, -⟩ := Cache.of_get_eq_some hhit
      obtain ⟨hsupply, hne⟩ := h e he tenant resource hkey
      refine ⟨?_, hget⟩
      rw [hsupply, respond, if_neg hne]
  · exact fetch_faithful hsteady now request tenant resource h

/-- From a faithful cache, every answer is the direct one and leaves a faithful cache. -/
theorem answer_faithful (hsteady : site.provider.IsSteady) (now : Moment) (request : Request)
    {s : State} (h : site.Faithful s.cache) :
    (site.answer now request s).1 = site.direct now request ∧
      site.Faithful (site.answer now request s).2.cache := by
  rw [answer, direct]
  cases request.destination with
  | refused why => exact ⟨rfl, h⟩
  | nowhere => exact ⟨rfl, h⟩
  | file path => exact ⟨rfl, h⟩
  | resource resource => exact render_faithful hsteady now request _ resource h

/-- From a faithful cache, a row of requests gets the direct answers. -/
theorem answerAll_eq_map_direct (hsteady : site.provider.IsSteady)
    (requests : List (Moment × Request)) {s : State} (h : site.Faithful s.cache) :
    (site.answerAll requests s).1 = requests.map fun (now, request) => site.direct now request := by
  induction requests generalizing s with
  | nil => rfl
  | cons first rest ih =>
    obtain ⟨now, request⟩ := first
    obtain ⟨hfirst, hfaithful⟩ := answer_faithful hsteady now request h
    simp only [answerAll, List.map_cons, hfirst, ih hfaithful]

/-! ## Choices about caching -/

end Site

/-- The choices about caching that an operator has. -/
structure Caching where
  /-- The number of documents that are kept. -/
  capacity : Nat
  /-- How many seconds a document is kept. -/
  life : Nat
  /-- Whether pages are kept. -/
  pages : Bool
  /-- Whether posts are kept. -/
  posts : Bool
deriving DecidableEq, Repr

/-- The state in which a site with these choices starts. -/
def Caching.start (caching : Caching) : Site.State := { cache := ⟨caching.capacity, []⟩ }

/-- The site with other choices about caching. -/
def Site.withCaching (site : Site) (caching : Caching) : Site :=
  { site with rules := { site.rules with
      pageLife := caching.life, cachePages := caching.pages, cachePosts := caching.posts } }

/-- Where the provider is steady, the responses to any row of requests at any moments are the same
for all choices about caching. -/
theorem Site.responses_withCaching (site : Site) (hsteady : site.provider.IsSteady)
    (caching caching' : Caching) (requests : List (Moment × Request)) :
    ((site.withCaching caching).answerAll requests caching.start).1
      = ((site.withCaching caching').answerAll requests caching'.start).1 := by
  have hdirect : ∀ c : Caching, ((site.withCaching c).answerAll requests c.start).1
      = requests.map fun (now, request) => site.direct now request := by
    intro c
    have hsteady' : (site.withCaching c).provider.IsSteady := hsteady
    have hempty : (site.withCaching c).Faithful c.start.cache := faithful_empty _ c.capacity
    exact answerAll_eq_map_direct hsteady' requests hempty
  rw [hdirect caching, hdirect caching']

/-- A page that is asked for three times, the last time when it has expired, with a cache and
without. -/
theorem Site.responses_to_repeated_visits :
    let page : List String := ["content", "localhost", "pages", "index.html"]
    let files : FileTree :=
      ⟨fun names => if names = page then some (.file [104, 105]) else none, []⟩
    let site := Site.ofLibrary "/files" ⟨"/content"⟩ {} Codec.stored files
    let request : Request := { method := .get, target := "/", version := .v11 }
    let requests := [0, 5, 2000000000].map fun time => ((⟨time, 0⟩ : Moment), request)
    let kept : Caching := ⟨16, 1, true, true⟩
    let off : Caching := ⟨0, 0, false, false⟩
    site.provider.IsSteady ∧
      ((site.withCaching kept).answerAll requests kept.start).1
        = ((site.withCaching off).answerAll requests off.start).1 := by
  intro page files site request requests kept off
  have hsteady : site.provider.IsSteady := Library.provider_isSteady ⟨"/content"⟩ files
  exact ⟨hsteady, responses_withCaching site hsteady kept off requests⟩

end ContentServer
