import ContentServer.Proofs.Site.CacheKeys
import ContentServer.Proofs.Site.Changes
import ContentServer.Proofs.Site.Posts

/-!
# Tenants are kept apart

All tenants of a server share one cache, and a document in it is known by its key only.  A tenant
may have any text for a name, also one that looks like the end of a key.  Still no tenant is shown
what belongs to another one.

* A key belongs to one resource of one tenant (`Resource.key_inj`).
* A request can *reach* a resource of a tenant in three ways: the answer depends on what is live
  under its key, or changes that, or the provider is asked for it.  It reaches nothing but the
  resource that it leads to, of the tenant of its host (`Reaches.own`).
* That tenant is given by the first rule with a pattern that occurs in the host
  (`Rules.tenantFor_cases`).

A query for a post does not name a tenant.  So asking the provider for a post reaches no tenant, and
only its key in the cache does.
-/

namespace ContentServer

/-! ## The tenant of a host -/

/-- The first rule that applies to a host gives its tenant. -/
theorem Rules.tenantFor_cases (rules : Rules) (host : String) :
    (∃ before rule after, rules.tenants = before ++ rule :: after ∧
      rule.pattern.toList <:+: host.toList ∧
      (∀ earlier ∈ before, ¬ earlier.pattern.toList <:+: host.toList) ∧
      rules.tenantFor host = rule.tenant) ∨
    (∀ rule ∈ rules.tenants, ¬ rule.pattern.toList <:+: host.toList) ∧
      rules.tenantFor host = rules.defaultTenant := by
  have happlies (rule : TenantRule) :
      applies host rule = true ↔ rule.pattern.toList <:+: host.toList :=
    Text.occursIn_iff _ _
  rw [tenantFor]
  cases hfind : rules.tenants.find? (applies host) with
  | some rule =>
    obtain ⟨hrule, before, after, htenants, hbefore⟩ := List.find?_eq_some_iff_append.mp hfind
    refine Or.inl ⟨before, rule, after, htenants, (happlies rule).mp hrule, ?_, rfl⟩
    intro earlier hearlier
    rw [← happlies]
    simpa using hbefore earlier hearlier
  | none =>
    refine Or.inr ⟨fun rule hrule => ?_, rfl⟩
    rw [← happlies]
    exact List.find?_eq_none.mp hfind rule hrule

theorem PageName.text_inj {name name' : PageName} (h : name.text = name'.text) : name = name' := by
  cases name <;> cases name' <;> simp [text] at h ⊢

namespace Cache

variable {c d : Cache} {now : Time} {key : String}

/-- The live entries of a name. -/
def under (now : Time) (key : String) (c : Cache) : List Entry :=
  (c.live now).filter fun e => e.key = key

theorem mem_under_iff {e : Entry} : e ∈ c.under now key ↔ e ∈ c.live now ∧ e.key = key := by
  rw [under, List.mem_filter, decide_eq_true_iff]

/-- What a look-up gives depends on the live entries of its name. -/
theorem get_congr (hc : c.Distinct) (hd : d.Distinct) (h : c.under now key = d.under now key) :
    (c.get now key).1 = (d.get now key).1 := by
  have hmem (e : Entry) : e ∈ c.live now ∧ e.key = key ↔ e ∈ d.live now ∧ e.key = key := by
    rw [← mem_under_iff, ← mem_under_iff, h]
  rcases get_cases hc now key with ⟨e, he, hkey, hget⟩ | ⟨hnone, hget⟩
  · rcases get_cases hd now key with ⟨e', he', hkey', hget'⟩ | ⟨hnone', -⟩
    · have hsame : e = e' := by
        have hmem' := (mem_live_iff.mp ((hmem e).mp ⟨he, hkey⟩).1).1
        exact List.inj_on_of_nodup_map hd hmem' (mem_live_iff.mp he').1 (hkey.trans hkey'.symm)
      rw [hget, hget', hsame]
    · exact absurd hkey (hnone' e ((hmem e).mp ⟨he, hkey⟩).1)
  · rcases get_cases hd now key with ⟨e', he', hkey', -⟩ | ⟨-, hget'⟩
    · exact absurd hkey' (hnone e' ((hmem e').mpr ⟨he', hkey'⟩).1)
    · rw [hget, hget']

end Cache

namespace Site

variable {site : Site} {now : Moment} {request : Request} {tenant : String} {resource : Resource}
variable {s u : State}

/-! ## What an answer reaches -/

/-- A request reaches a resource of a tenant. -/
inductive Reaches (site : Site) (now : Moment) (request : Request) (s : State) (tenant : String)
    (resource : Resource) : Prop where
  /-- With something else under its key, the answer would be another one, or another visit would be
  made. -/
  | reads {u : State} (hdistinct : u.cache.Distinct) (hvisits : u.visits = s.visits)
      (hothers : ∀ key, key ≠ resource.key tenant →
        u.cache.under now.clock key = s.cache.under now.clock key)
      (hdiffers : (site.answer now request u).1 ≠ (site.answer now request s).1 ∨
        (site.answer now request u).2.visits ≠ (site.answer now request s).2.visits)
  /-- The answer leaves something else under its key. -/
  | writes (hdiffers : (site.answer now request s).2.cache.under now.clock (resource.key tenant)
      ≠ s.cache.under now.clock (resource.key tenant))
  /-- The provider is asked for it. -/
  | asks {name : PageName} {v : Visit} {host : String} (hpage : resource = .page name)
      (hvisit : (site.answer now request s).2.visits = s.visits ++ [v])
      (hquery : v.query = .page host tenant name.text)

/-- An answer depends on the visits and on what is live under one key. -/
theorem answer_under_congr (hs : s.cache.Distinct) (hu : u.cache.Distinct)
    (hvisits : u.visits = s.visits)
    (hunder : ∀ resource, request.destination = .resource resource →
      u.cache.under now.clock (site.keyFor request resource)
        = s.cache.under now.clock (site.keyFor request resource)) :
    (site.answer now request u).1 = (site.answer now request s).1 ∧
      (site.answer now request u).2.visits = (site.answer now request s).2.visits := by
  have hfetch (resource : Resource) {s u : State} (hvisits : u.visits = s.visits) :
      let tenant := site.rules.tenantFor request.host
      (site.fetch now request tenant resource u).1 = (site.fetch now request tenant resource s).1 ∧
        (site.fetch now request tenant resource u).2.visits
          = (site.fetch now request tenant resource s).2.visits := by
    intro tenant
    rw [fst_fetch, fst_fetch, visits_fetch, visits_fetch, call, call, hvisits]
    exact ⟨rfl, rfl⟩
  cases hdest : request.destination with
  | refused why =>
    rw [answer, answer, hdest]
    exact ⟨rfl, hvisits⟩
  | nowhere =>
    rw [answer, answer, hdest]
    exact ⟨rfl, hvisits⟩
  | file path =>
    rw [answer, answer, hdest]
    exact ⟨rfl, hvisits⟩
  | resource resource =>
    have hget := Cache.get_congr hu hs (hunder resource hdest)
    rw [keyFor] at hget
    rw [answer_of_resource hdest, answer_of_resource hdest, render, render]
    cases hcached : resource.isCached site.rules with
    | false => exact hfetch resource hvisits
    | true =>
      simp only [if_true, hget]
      cases (s.cache.get now.clock (resource.key (site.rules.tenantFor request.host))).1 with
      | some document => exact ⟨rfl, hvisits⟩
      | none => exact hfetch resource hvisits

/-- An answer leaves what is live under a key as it is, unless the request leads to a resource with
this key. -/
theorem under_answer (hs : s.cache.Distinct) (site : Site) {key : String}
    (hkey : ∀ resource, request.destination = .resource resource →
      site.keyFor request resource ≠ key) :
    (site.answer now request s).2.cache.under now.clock key = s.cache.under now.clock key := by
  have hsame {t : State} (hlive : t.live now = s.live now) :
      t.cache.under now.clock key = s.cache.under now.clock key := by
    rw [Cache.under, Cache.under]
    exact congrArg _ hlive
  have hchange := answer_change hs site now request
  generalize site.answer now request s = answered at hchange ⊢
  obtain ⟨response, t⟩ := answered
  cases hchange with
  | apart => rfl
  | hit _ _ _ _ _ hlive => exact hsame hlive
  | bare _ _ _ _ hlive => exact hsame hlive
  | @shown resource document t hasks hsupply hne hvisits hlive =>
    have hentry : (site.entryFor now request resource document).key ≠ key :=
      hkey resource hasks.destination
    have hlive : t.cache.live now.clock = s.cache.live now.clock ++ _ := hlive
    rw [Cache.under, hlive, List.filter_append, Cache.under, List.append_right_eq_self,
      List.filter_eq_nil_iff]
    intro e he
    split at he
    · rw [List.mem_singleton.mp he, decide_eq_true_iff]
      exact hentry
    · cases he

/-- A visit is made for the resource that a request leads to, if this does not come from the
cache. -/
theorem visits_answer (hs : s.cache.Distinct) (site : Site) (now : Moment) (request : Request) :
    (site.answer now request s).2.visits = s.visits ∧
        (∀ resource, ¬ site.Asks now request s resource) ∨
      ∃ resource, site.Asks now request s resource ∧
        (site.answer now request s).2.visits
          = s.visits ++ [site.visitFor now request resource s] := by
  have hchange := answer_change hs site now request
  generalize site.answer now request s = answered at hchange ⊢
  obtain ⟨response, t⟩ := answered
  cases hchange with
  | apart hdest => exact Or.inl ⟨rfl, fun resource hasks => hdest resource hasks.destination⟩
  | hit hdest hcached he hkey hvisits =>
    refine Or.inl ⟨hvisits, fun resource hasks => ?_⟩
    exact hasks.not_needsNoVisit (.hit ⟨hdest, hcached, _, he, hkey⟩)
  | bare hasks _ _ hvisits => exact Or.inr ⟨_, hasks, hvisits⟩
  | shown hasks _ _ hvisits => exact Or.inr ⟨_, hasks, hvisits⟩

/-! ## Nothing else is reached -/

/-- A request reaches the resource that it leads to, of the tenant of its host, and nothing else. -/
theorem Reaches.own (h : site.Reaches now request s tenant resource) (hs : s.cache.Distinct) :
    request.destination = .resource resource ∧ tenant = site.rules.tenantFor request.host := by
  -- Whatever happens under the key happens under the key of what the request leads to.
  have hown (hreached : ∃ led, request.destination = .resource led ∧
      site.keyFor request led = resource.key tenant) :
      request.destination = .resource resource ∧ tenant = site.rules.tenantFor request.host := by
    obtain ⟨led, hdest, hkey⟩ := hreached
    obtain ⟨htenant, rfl⟩ := Resource.key_inj hkey
    exact ⟨hdest, htenant.symm⟩
  cases h with
  | @reads u hdistinct hvisits hothers hdiffers =>
    refine hown (by_contra fun hnone => ?_)
    obtain ⟨hresponse, hmade⟩ := answer_under_congr hs hdistinct hvisits fun led hdest =>
      hothers _ fun hkey => hnone ⟨led, hdest, hkey⟩
    exact hdiffers.elim (fun h => h hresponse) fun h => h hmade
  | writes hdiffers =>
    refine hown (by_contra fun hnone => hdiffers ?_)
    exact under_answer hs site fun led hdest hkey => hnone ⟨led, hdest, hkey⟩
  | @asks name v host hpage hvisit hquery =>
    rcases visits_answer hs site now request with ⟨hsame, -⟩ | ⟨led, hasks, hmade⟩
    · rw [hsame] at hvisit
      exact absurd (congrArg List.length hvisit) (by simp)
    · rw [hmade, List.append_cancel_left_eq, List.cons.injEq] at hvisit
      rw [← hvisit.1] at hquery
      have hasked : query request.host (site.rules.tenantFor request.host) led
          = .page host tenant name.text := hquery
      cases led with
      | post id => cases hasked
      | page led =>
        simp only [query, Query.page.injEq] at hasked
        obtain ⟨-, htenant, hname⟩ := hasked
        rw [hpage, ← PageName.text_inj hname]
        exact ⟨hasks.destination, htenant.symm⟩

/-- A page is reached when it does not come from the cache. -/
theorem Asks.reaches {name : PageName} (h : site.Asks now request s (.page name))
    (hs : s.cache.Distinct) :
    site.Reaches now request s (site.rules.tenantFor request.host) (.page name) := by
  rcases visits_answer hs site now request with ⟨-, hnone⟩ | ⟨led, hasks, hmade⟩
  · exact absurd h (hnone _)
  · have hsame := h.destination.symm.trans hasks.destination
    rw [Destination.resource.injEq] at hsame
    subst hsame
    exact .asks rfl hmade rfl

/-- A key in the cache belongs to one resource of one tenant, whatever texts the tenants are.  In
every state that a cache can be in, a request reaches nothing but the resource that it leads to, of
the tenant of its host.  That tenant is given by the first rule with a pattern that occurs in the
host, or else by the default. -/
theorem reaches_own_tenant (site : Site) (capacity : Nat) (uses : List (Time × Cache.Operation))
    (visits : List Visit) (now : Moment) (request : Request) :
    let s : State := { cache := Cache.performAll ⟨capacity, []⟩ uses, visits }
    let own := site.rules.tenantFor request.host
    (∀ (tenant tenant' : String) (resource resource' : Resource),
      resource.key tenant = resource'.key tenant' ↔ tenant = tenant' ∧ resource = resource') ∧
    (∀ tenant resource, site.Reaches now request s tenant resource →
      request.destination = .resource resource ∧ tenant = own) ∧
    (∀ name, site.Asks now request s (.page name) →
      site.Reaches now request s own (.page name)) ∧
    ((∃ before rule after, site.rules.tenants = before ++ rule :: after ∧
        rule.pattern.toList <:+: request.host.toList ∧
        (∀ earlier ∈ before, ¬ earlier.pattern.toList <:+: request.host.toList) ∧
        own = rule.tenant) ∨
      (∀ rule ∈ site.rules.tenants, ¬ rule.pattern.toList <:+: request.host.toList) ∧
        own = site.rules.defaultTenant) := by
  intro s own
  have hs : s.cache.Distinct := ((Cache.Kept.empty capacity).performAll uses).distinct
  refine ⟨fun tenant tenant' resource resource' => ⟨Resource.key_inj, ?_⟩,
    fun tenant resource h => h.own hs, fun name h => h.reaches hs,
    site.rules.tenantFor_cases request.host⟩
  rintro ⟨rfl, rfl⟩
  rfl

end Site

end ContentServer
