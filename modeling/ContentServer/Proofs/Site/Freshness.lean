import ContentServer.Proofs.Cache.Names
import ContentServer.Proofs.Site.Answers
import ContentServer.Proofs.Site.CacheKeys

/-!
# Rendered documents are fresh

A provider may give another text each time it is asked, so it matters which of them is sent.  It is
the text that the latest call for the same resource of the same tenant gave.  That call was made for
the request itself, or not longer ago than a cached document may live.

Visits to the provider do not say for whom they were made: a post is asked for by its number only,
whatever the tenant.  Therefore the visits of a run are counted here as *calls*, each with tenant
and resource (`Site.callsAll`), and `visits_answerAll` says that no visit is missing.

The invariant is `Site.Fresh`.  What a cache holds under the key of a resource is the text of the
latest call for it, with an expiry that counts from that call.  The interesting case is a call that
gives nothing to store, or finds no room.  It must not leave an older text behind, and it does not,
because there is a call only after the look-up has found nothing under the key
(`Cache.Distinct.key_ne_of_get_eq_none`).
-/

namespace ContentServer

/-! ## Calls -/

/-- A visit to the provider, with the resource of a tenant for which it was made. -/
structure Call where
  tenant : String
  resource : Resource
  visit : Visit
deriving DecidableEq, Repr

/-- The last of some calls that was made for a resource of a tenant. -/
def Call.latest? (calls : List Call) (tenant : String) (resource : Resource) : Option Call :=
  (calls.filter fun call => call.tenant = tenant && call.resource = resource).getLast?

/-- A call asks for the resource for which it was made, on behalf of a host of its tenant. -/
def Call.Asks (rules : Rules) (call : Call) : Prop :=
  ∃ host, rules.tenantFor host = call.tenant ∧
    call.visit.query = Site.query host call.tenant call.resource

theorem Call.latest?_concat_self (calls : List Call) (call : Call) :
    latest? (calls ++ [call]) call.tenant call.resource = some call := by
  simp [latest?, List.filter_append]

theorem Call.latest?_concat_of_ne {calls : List Call} {call : Call} {tenant : String}
    {resource : Resource} (h : ¬ (call.tenant = tenant ∧ call.resource = resource)) :
    latest? (calls ++ [call]) tenant resource = latest? calls tenant resource := by
  have hnone : [call].filter (fun call => call.tenant = tenant && call.resource = resource) = [] :=
    List.filter_eq_nil_iff.mpr fun c hc => by
      rw [List.mem_singleton.mp hc]
      simpa using h
  rw [latest?, latest?, List.filter_append, hnone, List.append_nil]

namespace Site

/-- The calls that are made to answer a request. -/
def calls (site : Site) (now : Moment) (request : Request) (s : State) : List Call :=
  match request.destination with
  | .resource resource =>
    ((site.answer now request s).2.visits.drop s.visits.length).map
      (Call.mk (site.rules.tenantFor request.host) resource)
  | _ => []

/-- The calls that are made to answer a row of requests. -/
def callsAll (site : Site) : List (Moment × Request) → State → List Call
  | [], _ => []
  | (now, request) :: requests, s =>
    site.calls now request s ++ callsAll site requests (site.answer now request s).2

variable {site : Site} {now : Moment} {request : Request} {tenant : String} {resource : Resource}
variable {s : State} {calls made : List Call}

theorem callsAll_append (site : Site) (requests more : List (Moment × Request)) (s : State) :
    site.callsAll (requests ++ more) s
      = site.callsAll requests s ++ site.callsAll more (site.answerAll requests s).2 := by
  induction requests generalizing s with
  | nil => rfl
  | cons first requests ih =>
    obtain ⟨now, request⟩ := first
    rw [List.cons_append, callsAll, callsAll, ih, List.append_assoc]
    rfl

/-! ## The invariant -/

/-- What a cache holds under the key of a resource is what the latest call for this resource gave,
and it dies a fixed time after that call. -/
structure Fresh (site : Site) (c : Cache) (calls : List Call) : Prop where
  distinct : c.Distinct
  latest : ∀ e ∈ c.entries, ∀ tenant resource, e.key = Resource.key tenant resource →
    resource.isCached site.rules = true ∧ e.value ≠ "" ∧
      ∃ call, Call.latest? calls tenant resource = some call ∧
        call.visit.supply = .text e.value ∧
        e.expiry = call.visit.time + Clock.seconds (min site.rules.pageLife Cache.maxLife)

theorem fresh_empty (site : Site) (capacity : Nat) : site.Fresh ⟨capacity, []⟩ [] where
  distinct := Cache.distinct_empty capacity
  latest e he := by cases he

theorem Fresh.get {c : Cache} (h : site.Fresh c calls) (now : Time) (key : String) :
    site.Fresh (c.get now key).2 calls where
  distinct := h.distinct.get now key
  latest e he := h.latest e (Cache.mem_of_mem_get he)

/-- A call is no harm to a cache that has nothing under the key of its resource. -/
theorem Fresh.concat {c : Cache} (h : site.Fresh c calls) {call : Call}
    (hfree : ∀ e ∈ c.entries, e.key ≠ call.resource.key call.tenant) :
    site.Fresh c (calls ++ [call]) where
  distinct := h.distinct
  latest e he tenant resource hkey := by
    have hother : ¬ (call.tenant = tenant ∧ call.resource = resource) := by
      rintro ⟨rfl, rfl⟩
      exact hfree e he hkey
    rw [Call.latest?_concat_of_ne hother]
    exact h.latest e he tenant resource hkey

theorem Fresh.set {c : Cache} {call : Call} (h : site.Fresh c (calls ++ [call]))
    (hcached : call.resource.isCached site.rules = true) {document : String}
    (hsupply : call.visit.supply = .text document) (hne : document ≠ "") :
    site.Fresh
      (c.set call.visit.time (call.resource.key call.tenant) document site.rules.pageLife).2
      (calls ++ [call]) where
  distinct := h.distinct.set _ _ _ _
  latest e he tenant resource hkey := by
    rcases Cache.mem_of_mem_set he with hold | rfl
    · exact h.latest e hold tenant resource hkey
    · obtain ⟨rfl, rfl⟩ := Resource.key_inj hkey
      exact ⟨hcached, hne, call, Call.latest?_concat_self calls call, hsupply, rfl⟩

/-! ## Answers from the provider -/

/-- The call that is made for a resource which the cache does not have. -/
def call (site : Site) (now : Moment) (request : Request) (tenant : String) (resource : Resource)
    (s : State) : Call :=
  ⟨tenant, resource, now.clock, query request.host tenant resource,
    site.provider s.visits now.clock (query request.host tenant resource)⟩

/-- A document is the one to send: the latest call for the resource gave it, and this call has just
been made or is not too long ago. -/
structure IsCurrent (site : Site) (now : Moment) (tenant : String) (resource : Resource)
    (calls made : List Call) (document : String) (call : Call) : Prop where
  latest : Call.latest? calls tenant resource = some call
  supply : call.visit.supply = .text document
  ne_empty : document ≠ ""
  recent : made = [call] ∨
    now.clock < call.visit.time + Clock.seconds (min site.rules.pageLife 315360000)

/-- A response that shows a document shows one to send. -/
def ShowsCurrent (site : Site) (now : Moment) (request : Request) (tenant : String)
    (resource : Resource) (calls made : List Call) (response : Response) : Prop :=
  response.kind = .rendered →
    ∃ document call, response = site.rendered now request document ∧
      site.IsCurrent now tenant resource calls made document call

theorem visits_fetch (site : Site) (now : Moment) (request : Request) (tenant : String)
    (resource : Resource) (s : State) :
    (site.fetch now request tenant resource s).2.visits
      = s.visits ++ [(site.call now request tenant resource s).visit] := by
  rw [fetch, visit]
  dsimp only
  split
  · rfl
  · rfl
  · split
    · rfl
    · rw [keep]
      split <;> rfl

theorem Fresh.fetch (h : site.Fresh s.cache calls)
    (hfree : ∀ e ∈ s.cache.entries, e.key ≠ resource.key tenant) (now : Moment)
    (request : Request) :
    let call := site.call now request tenant resource s
    site.Fresh (site.fetch now request tenant resource s).2.cache (calls ++ [call]) ∧
      site.ShowsCurrent now request tenant resource (calls ++ [call]) [call]
        (site.fetch now request tenant resource s).1 := by
  intro call
  have hcall : site.Fresh s.cache (calls ++ [call]) := h.concat hfree
  have hsupply : site.provider s.visits now.clock (query request.host tenant resource)
      = call.visit.supply := rfl
  rw [Site.fetch, visit]
  dsimp only
  rw [hsupply]
  cases hgiven : call.visit.supply with
  | breakdown => exact ⟨hcall, by intro hkind; cases hkind⟩
  | fault cause => exact ⟨hcall, by intro hkind; cases hkind⟩
  | text document =>
    dsimp only
    by_cases hempty : document = ""
    · rw [if_pos hempty]
      exact ⟨hcall, by intro hkind; cases hkind⟩
    · rw [if_neg hempty]
      refine ⟨?_, fun _ => ⟨document, call, rfl, ?_, hgiven, hempty, Or.inl rfl⟩⟩
      · rw [keep]
        split
        · next hcached => exact hcall.set hcached hgiven hempty
        · exact hcall
      · exact Call.latest?_concat_self calls call

/-! ## Answers with a cache -/

theorem Fresh.hit (h : site.Fresh s.cache calls) {document : String}
    (hhit : (s.cache.get now.clock (resource.key tenant)).1 = some document) :
    ∃ call, site.IsCurrent now tenant resource calls made document call := by
  obtain ⟨e, he, hkey, rfl, hlive⟩ := Cache.of_get_eq_some hhit
  obtain ⟨-, hne, call, hlatest, hsupply, hexpiry⟩ := h.latest e he tenant resource hkey
  exact ⟨call, hlatest, hsupply, hne, Or.inr (hexpiry ▸ hlive)⟩

/-- Either nothing is called and the response is from the cache, or one call is made. -/
theorem Fresh.render (h : site.Fresh s.cache calls) (now : Moment) (request : Request)
    (tenant : String) (resource : Resource) :
    ∃ made, (∀ call ∈ made, call = site.call now request tenant resource s) ∧
      (site.render now request tenant resource s).2.visits = s.visits ++ made.map Call.visit ∧
      site.Fresh (site.render now request tenant resource s).2.cache (calls ++ made) ∧
      site.ShowsCurrent now request tenant resource (calls ++ made) made
        (site.render now request tenant resource s).1 := by
  rw [Site.render]
  cases hcached : resource.isCached site.rules with
  | false =>
    -- What is not cached has never been stored.
    have hfree : ∀ e ∈ s.cache.entries, e.key ≠ resource.key tenant := by
      intro e he hkey
      obtain ⟨hcached', -⟩ := h.latest e he tenant resource hkey
      rw [hcached] at hcached'
      cases hcached'
    exact ⟨[site.call now request tenant resource s], by simp,
      visits_fetch site now request tenant resource s, h.fetch hfree now request⟩
  | true =>
    dsimp only
    cases hhit : (s.cache.get now.clock (resource.key tenant)).1 with
    | some document =>
      refine ⟨[], by simp, by simp, ?_, fun _ => ?_⟩
      · rw [List.append_nil]
        exact h.get now.clock _
      · obtain ⟨call, hcurrent⟩ := h.hit hhit
        rw [List.append_nil]
        exact ⟨document, call, rfl, hcurrent⟩
    | none =>
      let t : State := { s with cache := (s.cache.get now.clock (resource.key tenant)).2 }
      have hfree : ∀ e ∈ t.cache.entries, e.key ≠ resource.key tenant := fun e he =>
        h.distinct.key_ne_of_get_eq_none hhit he
      have ht : site.Fresh t.cache calls := h.get now.clock _
      exact ⟨[site.call now request tenant resource t], by simp [call, t],
        visits_fetch site now request tenant resource t, ht.fetch hfree now request⟩

/-! ## Runs -/

theorem answer_of_resource (h : request.destination = .resource resource) (site : Site)
    (now : Moment) (s : State) :
    site.answer now request s
      = site.render now request (site.rules.tenantFor request.host) resource s := by
  rw [answer, h]

/-- Where no resource is asked for, nothing is called and no document is shown. -/
theorem answer_of_no_resource (h : ∀ resource, request.destination ≠ .resource resource)
    (site : Site) (now : Moment) (s : State) :
    site.calls now request s = [] ∧ (site.answer now request s).2 = s ∧
      (site.answer now request s).1.kind ≠ .rendered := by
  rw [calls, answer]
  cases hdest : request.destination with
  | refused why => exact ⟨rfl, rfl, by intro hkind; cases hkind⟩
  | nowhere => exact ⟨rfl, rfl, by intro hkind; cases hkind⟩
  | file path =>
    refine ⟨rfl, rfl, ?_⟩
    dsimp only
    rw [serveFile]
    split <;> (intro hkind; cases hkind)
  | resource resource => exact absurd hdest (h resource)

theorem Fresh.answer (h : site.Fresh s.cache calls) (now : Moment) (request : Request) :
    let made := site.calls now request s
    (∀ call ∈ made, call.Asks site.rules) ∧
      (site.answer now request s).2.visits = s.visits ++ made.map Call.visit ∧
      site.Fresh (site.answer now request s).2.cache (calls ++ made) ∧
      ((site.answer now request s).1.kind = .rendered →
        ∃ resource document call, request.destination = .resource resource ∧
          (site.answer now request s).1 = site.rendered now request document ∧
          site.IsCurrent now (site.rules.tenantFor request.host) resource (calls ++ made) made
            document call) := by
  intro made
  by_cases hdest : ∃ resource, request.destination = .resource resource
  · obtain ⟨resource, hdest⟩ := hdest
    have hanswer := answer_of_resource hdest site now s
    obtain ⟨made', hmade', hvisits, hfresh, hshows⟩ :=
      h.render now request (site.rules.tenantFor request.host) resource
    -- All of the calls were made for this resource, so only their visits have to be compared.
    have hmade : made = made' := by
      have hmap : ∀ call ∈ made',
          Call.mk (site.rules.tenantFor request.host) resource call.visit = call := by
        intro call hcall
        rw [hmade' call hcall]
        rfl
      show site.calls now request s = made'
      rw [Site.calls, hdest]
      dsimp only
      rw [hanswer, hvisits, List.drop_left, List.map_map]
      exact (List.map_congr_left hmap).trans (List.map_id made')
    rw [hanswer, hmade]
    refine ⟨?_, hvisits, hfresh, fun hkind => ?_⟩
    · intro call hcall
      rw [hmade' call hcall]
      exact ⟨request.host, rfl, rfl⟩
    · obtain ⟨document, call, hresponse, hcurrent⟩ := hshows hkind
      exact ⟨resource, document, call, hdest, hresponse, hcurrent⟩
  · obtain ⟨hnone, hstate, hkind⟩ :=
      answer_of_no_resource (fun resource hr => hdest ⟨resource, hr⟩) site now s
    have hmade : made = [] := hnone
    rw [hmade, hstate, List.map_nil, List.append_nil, List.append_nil]
    exact ⟨by simp, rfl, h, fun hrendered => absurd hrendered hkind⟩

/-- A row of requests leaves a cache that is fresh, with all visits counted as calls. -/
theorem Fresh.answerAll (h : site.Fresh s.cache calls) (requests : List (Moment × Request)) :
    (∀ call ∈ site.callsAll requests s, call.Asks site.rules) ∧
      (site.answerAll requests s).2.visits
        = s.visits ++ (site.callsAll requests s).map Call.visit ∧
      site.Fresh (site.answerAll requests s).2.cache (calls ++ site.callsAll requests s) := by
  induction requests generalizing s calls with
  | nil =>
    rw [callsAll, List.map_nil, List.append_nil, List.append_nil]
    exact ⟨by simp, rfl, h⟩
  | cons first requests ih =>
    obtain ⟨now, request⟩ := first
    obtain ⟨hasks, hvisits, hfresh, -⟩ := h.answer now request
    obtain ⟨hasks', hvisits', hfresh'⟩ := ih hfresh
    rw [answerAll_cons, callsAll]
    refine ⟨?_, ?_, ?_⟩
    · intro call hcall
      rcases List.mem_append.mp hcall with hcall | hcall
      · exact hasks call hcall
      · exact hasks' call hcall
    · rw [hvisits', hvisits, List.map_append, List.append_assoc]
    · rw [← List.append_assoc]
      exact hfresh'

/-- Whatever was asked before, and whatever the provider gave at its times, a rendered response
shows a document that is not empty and comes from the latest call for the same resource of the same
tenant.  That call was made for this request, or a cached document may live longer than the time
since then. -/
theorem rendered_from_latest_call (site : Site) (capacity : Nat)
    (earlier : List (Moment × Request)) (now : Moment) (request : Request) :
    let start : State := { cache := ⟨capacity, []⟩ }
    let s := (site.answerAll earlier start).2
    let response := (site.answer now request s).1
    let calls := site.callsAll (earlier ++ [(now, request)]) start
    (site.answer now request s).2.visits = calls.map Call.visit ∧
      (∀ call ∈ calls, call.Asks site.rules) ∧
      (response.kind = .rendered →
        ∃ resource document call, request.destination = .resource resource ∧
          response = site.rendered now request document ∧
          site.IsCurrent now (site.rules.tenantFor request.host) resource calls
            (site.calls now request s) document call) := by
  intro start s response calls
  have hstart : site.Fresh start.cache [] := fresh_empty site capacity
  obtain ⟨hasks, hvisits, hfresh⟩ := hstart.answerAll earlier
  obtain ⟨hasks', hvisits', -, hrendered⟩ := hfresh.answer now request
  have hcalls : calls = site.callsAll earlier start ++ site.calls now request s := by
    show site.callsAll (earlier ++ [(now, request)]) start = _
    rw [callsAll_append, callsAll, callsAll, List.append_nil]
  rw [hcalls]
  refine ⟨?_, ?_, hrendered⟩
  · rw [hvisits', hvisits, List.map_append]
    rfl
  · intro call hcall
    rcases List.mem_append.mp hcall with hcall | hcall
    · exact hasks call hcall
    · exact hasks' call hcall

/-- A page that has changed since the first visit, in the last moment in which it is kept. -/
theorem rendered_of_a_kept_page :
    let provider : Provider := fun visits _ _ => .text (if visits.isEmpty then "old" else "new")
    let site : Site := ⟨"/files", ⟨fun _ => none, []⟩, provider, {}, fun _ => Codec.failing, {}⟩
    let request : Request := { method := .get, target := "/", version := .v11 }
    let first : Moment := ⟨0, 0⟩
    let now : Moment := ⟨Clock.seconds 900 - 1, 0⟩
    let s := (site.answerAll [(first, request)] { cache := ⟨1, []⟩ }).2
    let calls := site.callsAll ([(first, request)] ++ [(now, request)]) { cache := ⟨1, []⟩ }
    (site.answer now request s).1.kind = .rendered ∧
      ∃ resource document call, request.destination = .resource resource ∧
        (site.answer now request s).1 = site.rendered now request document ∧
        site.IsCurrent now (site.rules.tenantFor request.host) resource calls
          (site.calls now request s) document call := by
  intro provider site request first now s calls
  have hkind : (site.answer now request s).1.kind = .rendered := by decide +kernel
  exact ⟨hkind, (rendered_from_latest_call site 1 [(first, request)] now request).2.2 hkind⟩

end Site

end ContentServer
