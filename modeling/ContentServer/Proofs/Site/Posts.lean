import ContentServer.Proofs.Site.Caching
import ContentServer.Proofs.Site.Changes
import ContentServer.Proofs.Site.Files

/-!
# Posts

A `GET` asks for a post if its target has `/posts/` in it (`Request.AsksForPost`).  The target is
looked through with its query, but the number of the post is read from the path.  It is the second
segment, wherever in the target `/posts/` stands (`Request.NamesPost`).

* If the second segment is a row of digits that denotes a number from 1 on and below 2⁶⁴, the post
  with this number is looked up.  It comes from the cache, or the provider is asked for it once.
* Otherwise there is no such post.  The answer is 404, and neither the cache nor the provider has a
  part in it.

A number has many spellings, because zeros may stand in front of it and anything may follow the
segment.  What is looked up depends on the number and the tenant only (`answer_alike`).
-/

namespace ContentServer

/-! ## Requests for posts -/

/-- Zeros in front of a number make no difference to it. -/
theorem Text.ofDigitChars_zeros (k : Nat) (digits : List Char) :
    Nat.ofDigitChars 10 (List.replicate k '0' ++ digits) 0 = Nat.ofDigitChars 10 digits 0 := by
  induction k with
  | zero => rfl
  | succ k ih =>
    rw [List.replicate_succ, List.cons_append, Nat.ofDigitChars_cons]
    exact ih

namespace Request

variable {r : Request} {n : Nat}

/-- A request for a post: `GET` with a legal target that has `/posts/` in it, and with a path that
is more than a slash. -/
structure AsksForPost (r : Request) : Prop where
  get : r.method = .get
  legal : Destination.isLegalTarget r.target = true
  posts : "/posts/".toList <:+: r.target.toList
  path_ne : r.path ≠ "/"

/-- A segment is the second one of a path.  It stands behind the second slash, and it ends before
the third one or where the path ends. -/
def IsSecond (path segment : List Char) : Prop :=
  ∃ first rest, path = '/' :: (first ++ '/' :: (segment ++ rest)) ∧ '/' ∉ first ∧ '/' ∉ segment ∧
    rest.head? ∈ [none, some '/']

/-- Some characters are digits that denote a number which a post can have. -/
structure Denotes (segment : List Char) (n : Nat) : Prop where
  ne_nil : segment ≠ []
  digits : ∀ c ∈ segment, c.isDigit = true
  value : Nat.ofDigitChars 10 segment 0 = n
  pos : 1 ≤ n
  bound : n < UInt64.size

/-- The second segment of a request's path is the number of a post. -/
def NamesPost (r : Request) (n : Nat) : Prop :=
  ∃ segment, IsSecond r.path.toList segment ∧ Denotes segment n

theorem postId?_eq_some_iff {segment : List Char} :
    Destination.postId? segment = some n ↔ Denotes segment n := by
  rw [Destination.postId?, Option.filter_eq_some_iff, Text.digits?_eq_some_iff, Bool.and_eq_true,
    decide_eq_true_eq, decide_eq_true_eq]
  constructor
  · rintro ⟨⟨hne, hdigits, hvalue⟩, hpos, hbound⟩
    exact ⟨hne, hdigits, hvalue, hpos, hbound⟩
  · rintro ⟨hne, hdigits, hvalue, hpos, hbound⟩
    exact ⟨⟨hne, hdigits, hvalue⟩, hpos, hbound⟩

theorem AsksForPost.slash (h : r.AsksForPost) : r.target.toList.head? = some '/' :=
  (isLegalTarget_iff.mp h.legal).1

/-- The segments of a path that is more than a slash are what stands between its slashes. -/
theorem AsksForPost.segments_eq (h : r.AsksForPost) :
    ∃ rest, r.path.toList = '/' :: rest ∧
      Destination.segments r.path.toList = List.splitOn '/' rest := by
  have hslash := head?_path h.slash
  obtain ⟨rest, hpath⟩ := List.head?_eq_some_iff.mp hslash
  have hrest : rest.isEmpty = false := by
    rw [List.isEmpty_eq_false_iff]
    rintro rfl
    exact h.path_ne (String.toList_inj.mp hpath)
  refine ⟨rest, hpath, ?_⟩
  rw [Destination.segments, if_pos hslash, hpath, List.tail_cons, hrest, if_neg Bool.false_ne_true]

/-- The number that is read from the path of a request. -/
theorem AsksForPost.namesPost_iff (h : r.AsksForPost) :
    (Destination.segments r.path.toList)[1]?.bind Destination.postId? = some n ↔
      r.NamesPost n := by
  obtain ⟨rest, hpath, hsegments⟩ := h.segments_eq
  rw [Option.bind_eq_some_iff, hsegments, NamesPost]
  refine exists_congr fun segment => ?_
  rw [Text.getElem?_one_splitOn, postId?_eq_some_iff, IsSecond, hpath]
  simp only [List.cons.injEq, true_and]

/-- A request for a post leads to the post that it names, or nowhere. -/
theorem AsksForPost.destination_eq (h : r.AsksForPost) :
    r.destination = (((Destination.segments r.path.toList)[1]?.bind Destination.postId?).map
      fun id => .resource (.post id)).getD .nowhere := by
  have hindex : ¬ (Destination.segments r.path.toList).isEmpty = true := by
    rw [Destination.isEmpty_segments_iff (head?_path h.slash)]
    exact h.path_ne
  have habout : r.target ≠ "/about" := by
    intro htarget
    exact absurd (htarget ▸ h.posts) (by decide)
  have hposts := (Text.occursIn_iff _ _).mpr h.posts
  rw [destination_of_legal (Or.inl h.get) h.legal, Destination.ofTarget]
  simp only [h.get, hindex, habout, hposts, decide_true, decide_false, Bool.and_true,
    Bool.and_false, Bool.false_eq_true, if_true, if_false]
  cases (Destination.segments r.path.toList)[1]?.bind Destination.postId? <;> rfl

theorem AsksForPost.destination_of_names (h : r.AsksForPost) (hn : r.NamesPost n) :
    r.destination = .resource (.post n) := by
  rw [h.destination_eq, h.namesPost_iff.mpr hn]
  rfl

theorem AsksForPost.destination_of_names_none (h : r.AsksForPost) (hnone : ∀ n, ¬ r.NamesPost n) :
    r.destination = .nowhere := by
  have hid : (Destination.segments r.path.toList)[1]?.bind Destination.postId? = none := by
    rw [Option.eq_none_iff_forall_ne_some]
    exact fun n hn => hnone n (h.namesPost_iff.mp hn)
  rw [h.destination_eq, hid]
  rfl

/-- Behind `/posts/`, with any zeros in front of it and anything after it that starts a segment, a
query or a fragment, a number names its post. -/
theorem namesPost_of_spelling (zeros : Nat) {tail : List Char} (hget : r.method = .get)
    (htarget : r.target.toList
      = "/posts/".toList ++ ((List.replicate zeros '0' ++ Nat.toDigits 10 n) ++ tail))
    (htail : tail.head? ∈ [none, some '/', some '?', some '#']) (hup : ¬ "..".toList <:+: tail)
    (hpos : 1 ≤ n) (hbound : n < UInt64.size) : r.AsksForPost ∧ r.NamesPost n := by
  have hdigit : ∀ c ∈ List.replicate zeros '0' ++ Nat.toDigits 10 n, c.isDigit = true := by
    intro c hc
    rcases List.mem_append.mp hc with hc | hc
    · rw [List.eq_of_mem_replicate hc]
      rfl
    · exact Text.isDigit_of_mem_decimal c hc
  generalize hsegment : List.replicate zeros '0' ++ Nat.toDigits 10 n = segment at htarget hdigit
  have hno : ∀ mark : Char, mark.isDigit = false → mark ∉ segment := by
    intro mark hmark hmem
    rw [hdigit mark hmem] at hmark
    cases hmark
  have hposts : ("/posts/".toList.all fun c => c != '?' && c != '#') = true := rfl
  have hpath : r.path.toList = "/posts/".toList
      ++ (segment ++ tail.takeWhile fun c => c != '?' && c != '#') := by
    rw [toList_path, htarget, List.takeWhile_append_of_pos (List.all_eq_true.mp hposts),
      List.takeWhile_append_of_pos]
    intro c hc
    have hquery : c ≠ '?' := fun heq => hno '?' (by decide) (heq ▸ hc)
    have hfragment : c ≠ '#' := fun heq => hno '#' (by decide) (heq ▸ hc)
    simp [hquery, hfragment]
  have hne : segment ≠ [] := by
    rw [← hsegment]
    exact List.append_ne_nil_of_right_ne_nil _ Nat.toDigits_ne_nil
  refine ⟨⟨hget, isLegalTarget_iff.mpr ⟨?_, ?_⟩, ?_, ?_⟩, segment, ⟨"posts".toList, _, hpath, ?_⟩,
    hne, hdigit, ?_, hpos, hbound⟩
  · rw [htarget]
    rfl
  · rw [htarget]
    exact Text.not_infix_append (by decide)
      (Text.not_infix_append (hno '.' (by decide)) hup)
  · rw [htarget]
    exact (List.prefix_append _ _).isInfix
  · rw [Ne, ← String.toList_inj, hpath]
    intro heq
    cases heq
  · refine ⟨by decide, hno '/' (by decide), ?_⟩
    cases tail with
    | nil => simp
    | cons c tail =>
      obtain rfl | rfl | rfl : c = '/' ∨ c = '?' ∨ c = '#' := by simpa using htail
      all_goals simp
  · rw [← hsegment, Text.ofDigitChars_zeros]
    exact Nat.ofDigitChars_ten_toDigits

end Request

/-! ## Answers to requests for posts -/

namespace Site

variable {site : Site} {now : Moment} {request other : Request} {s : State} {n : Nat}

/-- The answer to a request comes from looking up a post, in the cache or with the provider. -/
inductive LooksUp (site : Site) (now : Moment) (request : Request) (s : State) (n : Nat) :
    Response × State → Prop where
  /-- The cache has the post. -/
  | kept {e : Cache.Entry} {t : State} (cached : site.rules.cachePosts = true)
      (live : e ∈ s.live now) (key : e.key = site.keyFor request (.post n))
      (visits : t.visits = s.visits) :
      LooksUp site now request s n (site.rendered now request e.value, t)
  /-- The provider is asked for the post. -/
  | asked {t : State}
      (not_kept : site.rules.cachePosts = true →
        ∀ e ∈ s.live now, e.key ≠ site.keyFor request (.post n))
      (visits : t.visits = s.visits ++
        [⟨now.clock, .post n, site.provider s.visits now.clock (.post n)⟩]) :
      LooksUp site now request s n
        (site.respond now request (site.provider s.visits now.clock (.post n)), t)

/-- Two responses say the same to two requests: they show the same document, or give the same reason
why there is none. -/
inductive SaysTheSame (site : Site) (now : Moment) (request other : Request) :
    Response → Response → Prop where
  | rendered (document : String) :
      SaysTheSame site now request other (site.rendered now request document)
        (site.rendered now other document)
  | notFound :
      SaysTheSame site now request other (.notFound request now.wall) (.notFound other now.wall)
  | serverError (what : String) :
      SaysTheSame site now request other (.serverError request now.wall what)
        (.serverError other now.wall what)

/-- What the provider gives is what is answered. -/
theorem fst_fetch (site : Site) (now : Moment) (request : Request) (tenant : String)
    (resource : Resource) (s : State) :
    (site.fetch now request tenant resource s).1
      = site.respond now request
          (site.provider s.visits now.clock (query request.host tenant resource)) := by
  rw [fetch, visit]
  dsimp only
  cases site.provider s.visits now.clock (query request.host tenant resource) with
  | breakdown => rfl
  | fault cause => rfl
  | text document =>
    dsimp only [respond]
    split <;> rfl

/-- Asking the provider for a post says the same to all who ask, and leaves the same behind. -/
theorem fetch_post_alike (site : Site) (now : Moment) (request other : Request) (tenant : String)
    (n : Nat) (s : State) :
    (site.fetch now other tenant (.post n) s).2 = (site.fetch now request tenant (.post n) s).2 ∧
      SaysTheSame site now request other (site.fetch now request tenant (.post n) s).1
        (site.fetch now other tenant (.post n) s).1 := by
  rw [fetch, fetch, visit, visit]
  dsimp only [query]
  cases site.provider s.visits now.clock (.post n) with
  | breakdown => exact ⟨rfl, .serverError _⟩
  | fault cause => exact ⟨rfl, .notFound⟩
  | text document =>
    dsimp only
    by_cases hempty : document = ""
    · rw [if_pos hempty, if_pos hempty]
      exact ⟨rfl, .notFound⟩
    · rw [if_neg hempty, if_neg hempty]
      exact ⟨rfl, .rendered document⟩

/-- Two requests for the same post of the same tenant are told the same, and leave the same
behind. -/
theorem answer_alike (site : Site) (now : Moment) (s : State)
    (hrequest : request.destination = .resource (.post n))
    (hother : other.destination = .resource (.post n))
    (htenant : site.rules.tenantFor other.host = site.rules.tenantFor request.host) :
    (site.answer now other s).2 = (site.answer now request s).2 ∧
      SaysTheSame site now request other (site.answer now request s).1
        (site.answer now other s).1 := by
  rw [answer_of_resource hrequest, answer_of_resource hother, htenant, render, render]
  split
  · dsimp only
    split
    · exact ⟨rfl, .rendered _⟩
    · exact fetch_post_alike site now request other _ n _
  · exact fetch_post_alike site now request other _ n s

/-- Asking the provider is looking a post up, if the cache does not have it.  The cache may have
dropped what is dead before. -/
theorem fetch_looksUp {u : State}
    (hnot : site.rules.cachePosts = true →
      ∀ e ∈ s.live now, e.key ≠ site.keyFor request (.post n))
    (hvisits : u.visits = s.visits) (tenant : String) :
    site.LooksUp now request s n (site.fetch now request tenant (.post n) u) := by
  have hmade := visits_fetch site now request tenant (.post n) u
  have hfetched := fst_fetch site now request tenant (.post n) u
  rw [hvisits] at hmade hfetched
  rw [← Prod.mk.eta (p := site.fetch now request tenant (.post n) u), hfetched]
  refine .asked hnot ?_
  rw [hmade, call, hvisits]
  rfl

/-- A request for a post looks the post up. -/
theorem answer_looksUp (hd : s.cache.Distinct) (site : Site) (now : Moment)
    (hdest : request.destination = .resource (.post n)) :
    site.LooksUp now request s n (site.answer now request s) := by
  rw [answer_of_resource hdest, render]
  cases hcached : Resource.isCached site.rules (.post n) with
  | false =>
    have hnot : ¬ site.rules.cachePosts = true := by simpa [Resource.isCached] using hcached
    exact fetch_looksUp (fun h => absurd h hnot) rfl _
  | true =>
    rw [if_pos rfl]
    dsimp only
    rcases Cache.get_cases hd now.clock (site.keyFor request (.post n)) with
      ⟨e, he, hkey, hget⟩ | ⟨hdead, hget⟩
    · simp only [keyFor] at hget
      simp only [hget]
      exact .kept hcached he hkey rfl
    · simp only [keyFor] at hget
      simp only [hget]
      refine fetch_looksUp (fun _ => hdead) ?_ _
      rfl

/-- An answer without a document that leaves everything as it is comes from no look-up. -/
theorem not_looksUp (site : Site) (now : Moment) (request : Request) (s : State) (n : Nat) :
    ¬ site.LooksUp now request s n (.notFound request now.wall, s) := by
  intro h
  generalize hanswer : (Response.notFound request now.wall, s) = answer at h
  cases h with
  | kept cached live key visits =>
    have hkind := congrArg (fun a : Response × State => a.1.kind) hanswer
    cases hkind
  | asked not_kept visits =>
    obtain ⟨-, rfl⟩ := Prod.mk.inj hanswer
    have hlength := congrArg List.length visits
    simp at hlength

/-- A request for a post looks a post up if and only if the second segment of its path is the number
of one.  The post with this number is then looked up.  All requests with this number and for the
same tenant look under the same key, leave the same behind and are told the same.  If the segment is
no such number, the answer is 404 and nothing is touched. -/
theorem answer_to_post (site : Site) (capacity : Nat) (uses : List (Time × Cache.Operation))
    (visits : List Visit) (now : Moment) {request : Request} (h : request.AsksForPost) :
    let s : State := { cache := Cache.performAll ⟨capacity, []⟩ uses, visits }
    ((∃ n, site.LooksUp now request s n (site.answer now request s)) ↔
      ∃ n, request.NamesPost n) ∧
    (∀ n, request.NamesPost n →
      site.LooksUp now request s n (site.answer now request s) ∧
      ∀ other : Request, other.AsksForPost → other.NamesPost n →
        site.rules.tenantFor other.host = site.rules.tenantFor request.host →
        site.keyFor other (.post n) = site.keyFor request (.post n) ∧
          (site.answer now other s).2 = (site.answer now request s).2 ∧
          SaysTheSame site now request other (site.answer now request s).1
            (site.answer now other s).1) ∧
    ((∀ n, ¬ request.NamesPost n) →
      site.answer now request s = (.notFound request now.wall, s)) := by
  intro s
  have hd : s.cache.Distinct := ((Cache.Kept.empty capacity).performAll uses).distinct
  have hnamed : ∀ n, request.NamesPost n →
      site.LooksUp now request s n (site.answer now request s) := fun n hn =>
    answer_looksUp hd site now (h.destination_of_names hn)
  have hnowhere : (∀ n, ¬ request.NamesPost n) →
      site.answer now request s = (.notFound request now.wall, s) := by
    intro hnone
    rw [answer, h.destination_of_names_none hnone]
  refine ⟨⟨?_, Exists.imp hnamed⟩, fun n hn => ⟨hnamed n hn, ?_⟩, hnowhere⟩
  · rintro ⟨n, hlooks⟩
    by_contra hnone
    rw [hnowhere (not_exists.mp hnone)] at hlooks
    exact not_looksUp site now request s n hlooks
  · intro other hother hsame htenant
    refine ⟨by rw [keyFor, keyFor, htenant], ?_⟩
    exact answer_alike site now s (h.destination_of_names hn)
      (hother.destination_of_names hsame) htenant

/-- A post, the same post with zeros, another segment and a query, and a number that no post has. -/
theorem answer_to_spellings :
    let site : Site :=
      ⟨"", ⟨fun _ => none, []⟩, fun _ _ _ => .text "post", {}, fun _ => Codec.failing, {}⟩
    let request (target : String) : Request := { method := .get, target, version := .v11 }
    let s : State := { cache := ⟨1, []⟩ }
    ((request "/posts/7").AsksForPost ∧ (request "/posts/7").NamesPost 7) ∧
      ((request "/posts/007/x?q").AsksForPost ∧ (request "/posts/007/x?q").NamesPost 7) ∧
      (request "/posts/00").AsksForPost ∧
      (site.answer ⟨0, 0⟩ (request "/posts/7") s).2.visits = [⟨0, .post 7, .text "post"⟩] ∧
      (site.answer ⟨0, 0⟩ (request "/posts/007/x?q") s).2
        = (site.answer ⟨0, 0⟩ (request "/posts/7") s).2 ∧
      site.answer ⟨0, 0⟩ (request "/posts/00") s = (.notFound (request "/posts/00") 0, s) := by
  intro site request s
  have hseven : (request "/posts/7").AsksForPost ∧ (request "/posts/7").NamesPost 7 :=
    Request.namesPost_of_spelling 0 rfl (by decide : _ = _ ++ (_ ++ [])) (by decide) (by decide)
      (by decide) (by decide)
  have hlong : (request "/posts/007/x?q").AsksForPost ∧ (request "/posts/007/x?q").NamesPost 7 :=
    Request.namesPost_of_spelling 2 rfl (by decide : _ = _ ++ (_ ++ "/x?q".toList)) (by decide)
      (by decide) (by decide) (by decide)
  have hzero : (request "/posts/00").AsksForPost :=
    ⟨rfl, by decide, by decide, by decide⟩
  have hnone : ∀ n, ¬ (request "/posts/00").NamesPost n := by
    intro n hn
    have hid := hzero.namesPost_iff.mpr hn
    have hno : (Destination.segments (request "/posts/00").path.toList)[1]?.bind
        Destination.postId? = none := by decide
    rw [hno] at hid
    cases hid
  obtain ⟨-, hnamed, -⟩ := answer_to_post site 1 [] [] ⟨0, 0⟩ hseven.1
  obtain ⟨hlooks, hsame⟩ := hnamed 7 hseven.2
  obtain ⟨-, hleft, -⟩ := hsame _ hlong.1 hlong.2 rfl
  obtain ⟨-, -, hnowhere⟩ := answer_to_post site 1 [] [] ⟨0, 0⟩ hzero
  refine ⟨hseven, hlong, hzero, ?_, hleft, hnowhere hnone⟩
  change site.LooksUp _ _ s 7 (site.answer ⟨0, 0⟩ (request "/posts/7") s) at hlooks
  generalize site.answer ⟨0, 0⟩ (request "/posts/7") s = answer at hlooks ⊢
  cases hlooks with
  | kept cached => exact absurd cached (by decide)
  | asked not_kept visits => exact visits

end Site

end ContentServer
