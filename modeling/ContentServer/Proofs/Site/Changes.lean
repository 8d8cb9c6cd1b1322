import ContentServer.Proofs.Cache.Rows
import ContentServer.Proofs.Site.Freshness

/-!
# What an answer changes

The cache and the record of visits are shared by all connections, so an answer should leave as
little behind as it can.  There are four ways in which an answer comes about, and `Change` lists
them with what they leave behind.

* A request that asks for no resource changes nothing at all.
* A document that is live in the cache is shown from there, without a visit.
* Otherwise the provider is visited once.  If it gives no document, what is live stays as it is.
* A document that it gives is shown.  It joins what is live if its resource is cached and there is
  room, and nothing has to go for it.

What is dead may go at any time.  The statements are therefore about the live entries, with their
expiry and in their order, and say that these are the same before and after.
-/

namespace ContentServer

/-- Only `GET` with a legal target leads to a resource. -/
theorem Request.of_destination_eq_resource {r : Request} {resource : Resource}
    (h : r.destination = .resource resource) :
    r.method = .get ∧ Destination.isLegalTarget r.target = true := by
  rw [destination] at h
  split at h
  · cases h
  · split at h
    · cases h
    · next hlegal =>
      refine ⟨?_, by simpa using hlegal⟩
      by_contra hmethod
      simp [Destination.ofTarget, hmethod] at h

namespace Site

variable {site : Site} {now : Moment} {request : Request} {resource : Resource} {s t : State}

/-! ## Four ways to answer -/

/-- The live entries of the cache. -/
def State.live (s : State) (now : Moment) : List Cache.Entry := s.cache.live now.clock

/-- The key of a resource for the tenant of a request. -/
def keyFor (site : Site) (request : Request) (resource : Resource) : String :=
  resource.key (site.rules.tenantFor request.host)

/-- A request for a cached resource that is live in the cache. -/
structure Hits (site : Site) (now : Moment) (request : Request) (s : State)
    (resource : Resource) : Prop where
  destination : request.destination = .resource resource
  cached : resource.isCached site.rules = true
  live : ∃ e ∈ s.live now, e.key = site.keyFor request resource

/-- A request for a cached resource that is not live in the cache. -/
structure Misses (site : Site) (now : Moment) (request : Request) (s : State)
    (resource : Resource) : Prop where
  destination : request.destination = .resource resource
  cached : resource.isCached site.rules = true
  not_live : ∀ e ∈ s.live now, e.key ≠ site.keyFor request resource

/-- The visit that is made for a resource which does not come from the cache. -/
def visitFor (site : Site) (now : Moment) (request : Request) (resource : Resource) (s : State) :
    Visit :=
  (site.call now request (site.rules.tenantFor request.host) resource s).visit

/-- A resource that does not come from the cache, because it is not cached or not live. -/
structure Asks (site : Site) (now : Moment) (request : Request) (s : State)
    (resource : Resource) : Prop where
  destination : request.destination = .resource resource
  not_live : resource.isCached site.rules = true →
    ∀ e ∈ s.live now, e.key ≠ site.keyFor request resource

/-- The entry of a document that is given for a resource now. -/
def entryFor (site : Site) (now : Moment) (request : Request) (resource : Resource)
    (document : String) : Cache.Entry :=
  ⟨site.keyFor request resource, document,
    now.clock + Clock.seconds (min site.rules.pageLife 315360000)⟩

/-- The response to a request in some state, and the state that it leaves. -/
inductive Change (site : Site) (now : Moment) (request : Request) (s : State) :
    Response → State → Prop where
  /-- Nothing is rendered, and nothing changes. -/
  | apart {response : Response} (hdest : ∀ resource, request.destination ≠ .resource resource)
      (hkind : response.kind ≠ .rendered) : Change site now request s response s
  /-- A document that is live is shown. -/
  | hit {resource : Resource} {e : Cache.Entry} {t : State}
      (hdest : request.destination = .resource resource)
      (hcached : resource.isCached site.rules = true) (he : e ∈ s.live now)
      (hkey : e.key = site.keyFor request resource) (hvisits : t.visits = s.visits)
      (hlive : t.live now = s.live now) :
      Change site now request s (site.rendered now request e.value) t
  /-- The provider gives no document. -/
  | bare {resource : Resource} {response : Response} {t : State}
      (hasks : site.Asks now request s resource)
      (hsupply : ∀ document, (site.visitFor now request resource s).supply = .text document →
        document = "")
      (hkind : response.kind ≠ .rendered)
      (hvisits : t.visits = s.visits ++ [site.visitFor now request resource s])
      (hlive : t.live now = s.live now) : Change site now request s response t
  /-- A document that the provider gives is shown.  It is kept if that is wanted and there is
  room. -/
  | shown {resource : Resource} {document : String} {t : State}
      (hasks : site.Asks now request s resource)
      (hsupply : (site.visitFor now request resource s).supply = .text document)
      (hne : document ≠ "")
      (hvisits : t.visits = s.visits ++ [site.visitFor now request resource s])
      (hlive : t.live now = s.live now ++
        if resource.isCached site.rules = true ∧ (s.live now).length < s.cache.capacity ∧
            0 < site.rules.pageLife then
          [site.entryFor now request resource document] else []) :
      Change site now request s (site.rendered now request document) t

/-! ## The answer comes about in one of them -/

/-- Keeping a document for which nothing is live adds its entry, if it is to be kept and there is
room. -/
theorem live_keep (hd : s.cache.Distinct)
    (hdead : resource.isCached site.rules = true →
      ∀ e ∈ s.live now, e.key ≠ site.keyFor request resource) (document : String) :
    (site.keep now.clock resource (site.keyFor request resource) document s).live now
      = s.live now ++
        if resource.isCached site.rules = true ∧ (s.live now).length < s.cache.capacity ∧
            0 < site.rules.pageLife then
          [site.entryFor now request resource document] else [] := by
  rw [keep]
  cases hcached : resource.isCached site.rules with
  | false => simp only [Bool.false_eq_true, if_false, false_and, List.append_nil]
  | true =>
    simp only [if_true, true_and]
    exact Cache.live_set hd (hdead hcached) document site.rules.pageLife

/-- An answer from the provider, with a cache that has nothing live for it.  The cache may have
dropped what is dead before. -/
theorem fetch_change {u : State} (hasks : site.Asks now request s resource)
    (hd : u.cache.Distinct) (hvisits : u.visits = s.visits) (hlive : u.live now = s.live now)
    (hcapacity : u.cache.capacity = s.cache.capacity) :
    let fetched := site.fetch now request (site.rules.tenantFor request.host) resource u
    Change site now request s fetched.1 fetched.2 := by
  intro fetched
  have hcall : site.call now request (site.rules.tenantFor request.host) resource u
      = site.call now request (site.rules.tenantFor request.host) resource s := by
    rw [call, call, hvisits]
  have hmade : fetched.2.visits = s.visits ++ [site.visitFor now request resource s] := by
    rw [visits_fetch, hcall, hvisits, visitFor]
  have hgiven : site.provider u.visits now.clock
        (query request.host (site.rules.tenantFor request.host) resource)
      = (site.visitFor now request resource s).supply := by
    rw [visitFor, ← hcall]
    rfl
  revert hmade
  simp only [fetched, fetch, visit, hgiven]
  cases hsupply : (site.visitFor now request resource s).supply with
  | breakdown =>
    intro hmade
    exact .bare hasks (by simp [hsupply]) (by simp [Response.serverError, Response.text]) hmade
      hlive
  | fault cause =>
    intro hmade
    exact .bare hasks (by simp [hsupply]) (by simp [Response.notFound, Response.text]) hmade hlive
  | text document =>
    dsimp only
    by_cases hempty : document = ""
    · rw [if_pos hempty]
      intro hmade
      refine .bare hasks ?_ (by simp [Response.notFound, Response.text]) hmade hlive
      intro given hgiven
      rw [hsupply, Supply.text.injEq] at hgiven
      exact hgiven ▸ hempty
    · rw [if_neg hempty]
      intro hmade
      refine .shown hasks hsupply hempty hmade ?_
      rw [← hlive, ← hcapacity]
      refine live_keep ?_ (fun hcached e he => ?_) document
      · exact hd
      · have hmem : e ∈ s.live now := hlive ▸ he
        exact hasks.not_live hcached e hmem

/-- Whatever is asked for, the answer comes about in one of the four ways. -/
theorem answer_change (hd : s.cache.Distinct) (site : Site) (now : Moment) (request : Request) :
    Change site now request s (site.answer now request s).1 (site.answer now request s).2 := by
  by_cases hdest : ∃ resource, request.destination = .resource resource
  · obtain ⟨resource, hdest⟩ := hdest
    rw [answer_of_resource hdest, render]
    cases hcached : resource.isCached site.rules with
    | false => exact fetch_change ⟨hdest, by simp [hcached]⟩ hd rfl rfl rfl
    | true =>
      have hlive := Cache.live_get hd now.clock (site.keyFor request resource)
      simp only [if_true]
      rcases Cache.get_cases hd now.clock (site.keyFor request resource) with
        ⟨e, he, hkey, hget⟩ | ⟨hdead, hget⟩
      · simp only [keyFor] at hget
        simp only [hget]
        exact .hit hdest hcached he hkey rfl hlive
      · simp only [keyFor] at hget
        simp only [hget]
        exact fetch_change ⟨hdest, fun _ => hdead⟩ (hd.get _ _) rfl hlive
          (Cache.capacity_perform s.cache now.clock (.get _))
  · have hnone : ∀ resource, request.destination ≠ .resource resource :=
      fun resource hr => hdest ⟨resource, hr⟩
    obtain ⟨-, hstate, hkind⟩ := answer_of_no_resource hnone site now s
    rw [hstate]
    exact .apart hnone hkind

/-! ## One visit and one entry at most -/

theorem kind_rendered (site : Site) (now : Moment) (request : Request) (document : String) :
    (site.rendered now request document).kind = .rendered := rfl

theorem Misses.eq_of_asks {other : Resource} (h : site.Misses now request s other)
    (hasks : site.Asks now request s resource) : other = resource := by
  have hsame := h.destination.symm.trans hasks.destination
  rwa [Destination.resource.injEq] at hsame

/-- A request for which no visit is needed: it leads to no resource, or to one that is live in the
cache. -/
inductive NeedsNoVisit (site : Site) (now : Moment) (request : Request) (s : State) : Prop where
  | method (h : request.method ≠ .get)
  | target (h : Destination.isLegalTarget request.target = false)
  | file {path : String} (h : request.destination = .file path)
  | nowhere (h : request.destination = .nowhere)
  | hit {resource : Resource} (h : site.Hits now request s resource)

theorem Asks.not_needsNoVisit (hasks : site.Asks now request s resource) :
    ¬ site.NeedsNoVisit now request s := by
  obtain ⟨hget, hlegal⟩ := Request.of_destination_eq_resource hasks.destination
  intro h
  cases h with
  | method h => exact h hget
  | target h =>
    rw [hlegal] at h
    cases h
  | file h =>
    rw [hasks.destination] at h
    cases h
  | nowhere h =>
    rw [hasks.destination] at h
    cases h
  | @hit other h =>
    have hsame := h.destination.symm.trans hasks.destination
    rw [Destination.resource.injEq] at hsame
    subst hsame
    obtain ⟨e, he, hkey⟩ := h.live
    exact hasks.not_live h.cached e he hkey

/-- In every state that a cache can be in, an answer makes at most one visit, and none if a visit is
not needed.  What is live stays as it is, expiry and order included, unless a document is rendered
for a cached resource that was not live.  The document from the visit then joins what is live if
there is room, as long as it is kept for any time at all.  It is shown whether there is room or
not. -/
theorem answer_changes (site : Site) (capacity : Nat) (uses : List (Time × Cache.Operation))
    (visits : List Visit) (now : Moment) (request : Request) :
    let s : State := { cache := Cache.performAll ⟨capacity, []⟩ uses, visits }
    let response := (site.answer now request s).1
    let t := (site.answer now request s).2
    ∃ made : List Visit, t.visits = s.visits ++ made ∧ made.length ≤ 1 ∧
      (site.NeedsNoVisit now request s → made = []) ∧
      (response.kind ≠ .rendered → t.live now = s.live now) ∧
      ((∀ resource, ¬ site.Misses now request s resource) → t.live now = s.live now) ∧
      ∀ resource, site.Misses now request s resource →
        made = [site.visitFor now request resource s] ∧
        (∀ document, (site.visitFor now request resource s).supply = .text document →
          document ≠ "" → response = site.rendered now request document) ∧
        (response.kind = .rendered →
          ∃ document, (site.visitFor now request resource s).supply = .text document ∧
            response = site.rendered now request document ∧
            t.live now = s.live now ++
              if (s.live now).length < capacity ∧ 0 < site.rules.pageLife then
                [site.entryFor now request resource document] else []) := by
  intro s response t
  have hd : s.cache.Distinct := ((Cache.Kept.empty capacity).performAll uses).distinct
  have hcapacity : s.cache.capacity = capacity := Cache.capacity_performAll ⟨capacity, []⟩ uses
  have hchange : Change site now request s response t := answer_change hd site now request
  clear_value response t
  cases hchange with
  | apart hdest hkind =>
    refine ⟨[], by simp, by simp, fun _ => rfl, fun _ => rfl, fun _ => rfl, ?_⟩
    intro resource hmiss
    exact absurd hmiss.destination (hdest resource)
  | hit hdest hcached he hkey hvisits hlive =>
    refine ⟨[], by simpa using hvisits, by simp, fun _ => rfl, fun _ => hlive, fun _ => hlive, ?_⟩
    intro other hmiss
    have hasks : site.Asks now request s other := ⟨hmiss.destination, fun _ => hmiss.not_live⟩
    exact absurd (.hit ⟨hdest, hcached, _, he, hkey⟩) hasks.not_needsNoVisit
  | @bare resource response t hasks hsupply hkind hvisits hlive =>
    refine ⟨_, hvisits, by simp, fun h => absurd h hasks.not_needsNoVisit, fun _ => hlive,
      fun _ => hlive, ?_⟩
    intro other hmiss
    obtain rfl := hmiss.eq_of_asks hasks
    refine ⟨rfl, fun document hgiven hne => ?_, fun hrendered => absurd hrendered hkind⟩
    exact absurd (hsupply document hgiven) hne
  | @shown resource document t hasks hsupply hne hvisits hlive =>
    refine ⟨_, hvisits, by simp, fun h => absurd h hasks.not_needsNoVisit,
      fun h => absurd (kind_rendered site now request document) h, fun hnone => ?_, ?_⟩
    · have hcached : ¬ resource.isCached site.rules = true := fun hcached =>
        hnone resource ⟨hasks.destination, hcached, hasks.not_live hcached⟩
      rw [hlive, if_neg fun h => hcached h.1, List.append_nil]
    · intro other hmiss
      obtain rfl := hmiss.eq_of_asks hasks
      refine ⟨rfl, fun given hgiven _ => ?_, fun _ => ⟨document, hsupply, rfl, ?_⟩⟩
      · rw [hsupply, Supply.text.injEq] at hgiven
        rw [hgiven]
      · rw [hlive, hcapacity]
        simp only [hmiss.cached, true_and]

end Site

end ContentServer
