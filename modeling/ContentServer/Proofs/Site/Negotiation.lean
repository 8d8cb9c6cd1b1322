import ContentServer.Codec.Stored
import ContentServer.Proofs.Http.Negotiation
import ContentServer.Proofs.Site.Changes

/-!
# One document for every client

The cache keeps documents and no bodies.  A document is encoded for each request anew, so the
codings that one client accepts have no part in what another one is sent.  All clients that are
shown a resource from the cache make the same document of it, whatever they accept
(`answer_of_live`), and it is the one that was shown when the resource was rendered
(`value_of_shown`).
-/

namespace ContentServer.Site

variable {site : Site} {now later : Moment} {request : Request} {resource : Resource} {s : State}
variable {e : Cache.Entry}

/-- The document that a client makes of the answer to its request. -/
def shownTo (site : Site) (now : Moment) (request : Request) (s : State) : Option Bytes :=
  Reply.document? site.codecs (Reply.ofResponse (site.answer now request s).1)

theorem shownTo_of_rendered {document : String} (h : request.destination = .resource resource)
    (hanswer : (site.answer now request s).1 = site.rendered now request document) :
    site.shownTo now request s = some (Bytes.ofText document) := by
  have hmethod : request.method ≠ .head := by
    rw [(Request.of_destination_eq_resource h).1]
    decide
  rw [shownTo, hanswer]
  exact (Response.html_negotiated _ _ _ _ _).decoded hmethod

/-! ## Names stay distinct -/

theorem distinct_fetch (hd : s.cache.Distinct) (site : Site) (now : Moment) (request : Request)
    (tenant : String) (resource : Resource) :
    (site.fetch now request tenant resource s).2.cache.Distinct := by
  rw [fetch, visit]
  dsimp only
  split
  · exact hd
  · exact hd
  · split
    · exact hd
    · rw [keep]
      split
      · exact hd.set _ _ _ _
      · exact hd

theorem distinct_answer (hd : s.cache.Distinct) (site : Site) (now : Moment) (request : Request) :
    (site.answer now request s).2.cache.Distinct := by
  rw [answer]
  split
  · exact hd
  · exact hd
  · exact hd
  · rw [render]
    split
    · dsimp only
      split
      · exact hd.get _ _
      · exact distinct_fetch (hd.get _ _) site now request _ _
    · exact distinct_fetch hd site now request _ _

/-! ## Documents in the cache -/

/-- Of the entries of a name there is one. -/
theorem entry_eq_of_key (hd : s.cache.Distinct) {e e' : Cache.Entry} (he : e ∈ s.live now)
    (he' : e' ∈ s.live now) (hkey : e.key = e'.key) : e = e' :=
  List.inj_on_of_nodup_map hd (Cache.mem_live_iff.mp he).1 (Cache.mem_live_iff.mp he').1 hkey

/-- A resource that is live in the cache is shown from there. -/
theorem answer_of_live (hd : s.cache.Distinct) (h : site.Hits now request s resource)
    (he : e ∈ s.live now) (hkey : e.key = site.keyFor request resource) :
    (site.answer now request s).1 = site.rendered now request e.value := by
  have hchange := answer_change hd site now request
  generalize (site.answer now request s).1 = response at hchange ⊢
  generalize (site.answer now request s).2 = t at hchange
  cases hchange with
  | apart hdest _ => exact absurd h.destination (hdest resource)
  | @hit other found t hdest _ hfound hname _ _ =>
    have hsame := hdest.symm.trans h.destination
    rw [Destination.resource.injEq] at hsame
    rw [hsame, ← hkey] at hname
    rw [entry_eq_of_key hd hfound he hname]
  | bare hasks _ _ _ _ => exact absurd (.hit h) hasks.not_needsNoVisit
  | shown hasks _ _ _ _ => exact absurd (.hit h) hasks.not_needsNoVisit

/-- What is live for a resource that was just rendered is the document that was shown. -/
theorem value_of_shown (hd : s.cache.Distinct) (h : request.destination = .resource resource)
    (hcached : resource.isCached site.rules = true)
    (hkind : (site.answer now request s).1.kind = .rendered) :
    ∃ document, (site.answer now request s).1 = site.rendered now request document ∧
      ∀ e ∈ (site.answer now request s).2.live now, e.key = site.keyFor request resource →
        e.value = document := by
  have hchange := answer_change hd site now request
  generalize (site.answer now request s).1 = response at hchange hkind ⊢
  generalize (site.answer now request s).2 = t at hchange ⊢
  cases hchange with
  | apart hdest _ => exact absurd h (hdest resource)
  | bare _ _ hbare _ _ => exact absurd hkind hbare
  | @hit other found t hdest _ hfound hname _ hlive =>
    have hsame := hdest.symm.trans h
    rw [Destination.resource.injEq] at hsame
    refine ⟨found.value, rfl, fun e he hkey => ?_⟩
    rw [hlive] at he
    rw [hsame, ← hkey] at hname
    rw [entry_eq_of_key hd hfound he hname]
  | @shown other document t hasks _ _ _ hlive =>
    have hsame := hasks.destination.symm.trans h
    rw [Destination.resource.injEq] at hsame
    subst hsame
    refine ⟨document, rfl, fun e he hkey => ?_⟩
    rw [hlive] at he
    rcases List.mem_append.mp he with he | he
    · exact absurd hkey (hasks.not_live hcached e he)
    · split at he
      · rw [List.mem_singleton.mp he]
        rfl
      · cases he

/-! ## Documents and codings -/

/-- A rendered document is sent in the preferred one of the codings that the request lists, if
documents are encoded and the encoder does not fail, and as it is otherwise.  A client makes the
document of it in either case.  So all clients that are shown a resource from the cache make the
same document of it, and so do two clients of which the first is shown the resource, be it from the
cache or from the provider, and the second from the cache. -/
theorem document_for_every_client (codecs : Codecs) :
    (∀ (request : Request) (wall : Nat) (document : String) (compress : Bool),
      Response.Negotiated codecs request document compress
        (.html codecs request wall document compress)) ∧
    ∀ (site : Site) (capacity : Nat) (uses : List (Time × Cache.Operation)) (visits : List Visit)
        (now : Moment) (tenant : String) (resource : Resource),
      let s : State := { cache := Cache.performAll ⟨capacity, []⟩ uses, visits }
      (∃ document : String, ∀ request : Request, site.rules.tenantFor request.host = tenant →
        site.Hits now request s resource →
          (site.answer now request s).1 = site.rendered now request document ∧
          site.shownTo now request s = some (Bytes.ofText document)) ∧
      ∀ (first second : Request) (later : Moment),
        first.destination = .resource resource → site.rules.tenantFor first.host = tenant →
        site.rules.tenantFor second.host = tenant → now.clock ≤ later.clock →
        (site.answer now first s).1.kind = .rendered →
        site.Hits later second (site.answer now first s).2 resource →
          ∃ document : String, site.shownTo now first s = some (Bytes.ofText document) ∧
            site.shownTo later second (site.answer now first s).2
              = some (Bytes.ofText document) := by
  refine ⟨fun request wall document compress =>
    Response.html_negotiated codecs request wall document compress, ?_⟩
  intro site capacity uses visits now tenant resource s
  have hd : s.cache.Distinct := ((Cache.Kept.empty capacity).performAll uses).distinct
  constructor
  · by_cases hsome : ∃ e ∈ s.live now, e.key = resource.key tenant
    · obtain ⟨e, he, hkey⟩ := hsome
      refine ⟨e.value, fun request htenant hhits => ?_⟩
      have hanswer := answer_of_live hd hhits he (by rw [hkey, keyFor, htenant])
      exact ⟨hanswer, shownTo_of_rendered hhits.destination hanswer⟩
    · refine ⟨"", fun request htenant hhits => ?_⟩
      obtain ⟨e, he, hkey⟩ := hhits.live
      rw [keyFor, htenant] at hkey
      exact absurd ⟨e, he, hkey⟩ hsome
  · intro first second later hdest hfirst hsecond hlater hkind hhits
    obtain ⟨document, hshown, hvalue⟩ := value_of_shown hd hdest hhits.cached hkind
    obtain ⟨e, he, hkey⟩ := hhits.live
    -- What is live later was live before.
    have hbefore : e ∈ (site.answer now first s).2.live now := by
      obtain ⟨hmem, hlive⟩ := Cache.mem_live_iff.mp he
      rw [Cache.Entry.isLive_iff] at hlive
      exact Cache.mem_live_iff.mpr ⟨hmem, Cache.Entry.isLive_iff.mpr (hlater.trans_lt hlive)⟩
    have hsame : e.value = document := by
      refine hvalue e hbefore ?_
      rw [hkey, keyFor, keyFor, hfirst, hsecond]
    have hanswer := answer_of_live (distinct_answer hd site now first) hhits he hkey
    rw [hsame] at hanswer
    exact ⟨document, shownTo_of_rendered hdest hshown,
      shownTo_of_rendered hhits.destination hanswer⟩

/-- A page that is live in the cache, for a client that accepts two codings and for one that accepts
none. -/
theorem document_for_two_clients :
    let site : Site :=
      ⟨"/", FileTree.sample, fun _ _ _ => .text "page", {}, Codec.stored, {}⟩
    let uses : List (Time × Cache.Operation) := [(0, .set "localhost_page_index" "text" 900)]
    let s : State := { cache := Cache.performAll ⟨1, []⟩ uses }
    let first : Request :=
      { method := .get, target := "/", version := .v11, codings := [.br, .gzip] }
    let second : Request := { method := .get, target := "/?b", version := .v10 }
    site.Hits ⟨5, 0⟩ first s (.page .index) ∧ site.Hits ⟨5, 0⟩ second s (.page .index) ∧
      (site.answer ⟨5, 0⟩ first s).1.coding = some .gzip ∧
      (site.answer ⟨5, 0⟩ second s).1.coding = none ∧
      site.shownTo ⟨5, 0⟩ first s = site.shownTo ⟨5, 0⟩ second s := by
  intro site uses s first second
  have hlive : ∃ e ∈ s.live ⟨5, 0⟩, e.key = "localhost_page_index" := by decide
  have hfirst : site.Hits ⟨5, 0⟩ first s (.page .index) := ⟨by decide, by decide, hlive⟩
  have hsecond : site.Hits ⟨5, 0⟩ second s (.page .index) := ⟨by decide, by decide, hlive⟩
  obtain ⟨document, hshown⟩ :=
    ((document_for_every_client Codec.stored).2 site 1 uses [] ⟨5, 0⟩ "localhost"
      (.page .index)).1
  obtain ⟨hfirst', hshown'⟩ := hshown first rfl hfirst
  obtain ⟨hsecond', hshown''⟩ := hshown second rfl hsecond
  refine ⟨hfirst, hsecond, ?_, ?_, hshown'.trans hshown''.symm⟩
  · rw [hfirst']
    rfl
  · rw [hsecond']
    rfl

end ContentServer.Site
