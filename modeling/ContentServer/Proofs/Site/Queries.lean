import ContentServer.Proofs.Site.Files

/-!
# Queries and fragments

A target may have a query or a fragment behind its path.  The rules of `Request.destination` look
at the path in some places and at the whole target in others, so it is not plain that what stands
behind the path has no part in where a request leads.  It can do so in three ways only.

* Two points in a row anywhere in the target make it illegal.
* `/posts/` anywhere in the target makes the request one for a post.
* The page `about` is found by its whole target.

Neither `..` nor `/posts/` has a `?` or a `#` in it, so none of the two can begin in the path and
end behind it (`Request.infix_target_iff`).  Where the tail of a target has none of them, and the
path is not that page's, the request leads where it leads without the tail
(`Request.destination_withTail`).  What is answered is then the same, except that the text of a 404
quotes the target (`Site.answer_withTail`).
-/

namespace ContentServer

namespace Request

variable {r : Request} {path tail : String} {pat : List Char}

/-- The request with another target. -/
def withTarget (r : Request) (target : String) : Request := { r with target }

/-- A legal target without a query and a fragment. -/
structure IsPath (path : String) : Prop where
  slash : path.toList.head? = some '/'
  no_query : '?' ∉ path.toList
  no_fragment : '#' ∉ path.toList
  not_upwards : ¬ "..".toList <:+: path.toList

/-- A query or a fragment that names no post and does not lead upwards. -/
structure IsTail (tail : String) : Prop where
  mark : tail.toList.head? = some '?' ∨ tail.toList.head? = some '#'
  not_upwards : ¬ "..".toList <:+: tail.toList
  no_post : ¬ "/posts/".toList <:+: tail.toList

/-! ## Where the tail has no part -/

theorem path_withTarget (h : IsPath path) : (r.withTarget path).path = path := by
  have hall : ∀ c ∈ path.toList, (c != '?' && c != '#') = true := by
    intro c hc
    have hquery : c ≠ '?' := fun heq => h.no_query (heq ▸ hc)
    have hfragment : c ≠ '#' := fun heq => h.no_fragment (heq ▸ hc)
    simp [hquery, hfragment]
  rw [← String.toList_inj, toList_path, withTarget, List.takeWhile_eq_self_iff.mpr hall]

theorem path_withTail (h : IsPath path) (htail : IsTail tail) :
    (r.withTarget (path ++ tail)).path = path := by
  have hpath := congrArg String.toList (path_withTarget (r := r) h)
  rw [toList_path, withTarget] at hpath
  have hmark : tail.toList.takeWhile (fun c => c != '?' && c != '#') = [] := by
    rcases htail.mark with hmark | hmark <;>
      obtain ⟨rest, hrest⟩ := List.head?_eq_some_iff.mp hmark <;> rw [hrest] <;> rfl
  rw [← String.toList_inj, toList_path, withTarget, String.toList_append,
    List.takeWhile_append_of_pos (List.takeWhile_eq_self_iff.mp hpath), hmark, List.append_nil]

/-- What has no mark in it stands in the path or in the tail, and not across the two. -/
theorem infix_target_iff (htail : IsTail tail) (hquery : '?' ∉ pat) (hfragment : '#' ∉ pat)
    (hne : pat ≠ []) :
    pat <:+: (path ++ tail).toList ↔ pat <:+: path.toList ∨ pat <:+: tail.toList := by
  obtain ⟨c, rest, hrest, hc⟩ : ∃ c rest, tail.toList = c :: rest ∧ c ∉ pat := by
    rcases htail.mark with hmark | hmark
    · obtain ⟨rest, hrest⟩ := List.head?_eq_some_iff.mp hmark
      exact ⟨_, rest, hrest, hquery⟩
    · obtain ⟨rest, hrest⟩ := List.head?_eq_some_iff.mp hmark
      exact ⟨_, rest, hrest, hfragment⟩
  have hcut : ∀ front : List Char, pat <:+: front ++ c :: rest ↔ pat <:+: front ∨ pat <:+: rest :=
    fun front => Text.infix_append_cons_iff hc
  have hrestOnly : pat <:+: c :: rest ↔ pat <:+: rest := by
    have hempty := hcut []
    rwa [List.nil_append, List.infix_nil, or_iff_right hne] at hempty
  rw [String.toList_append, hrest, hcut, hrestOnly]

theorem isLegalTarget_withTail (h : IsPath path) (htail : IsTail tail) :
    Destination.isLegalTarget (path ++ tail) = true := by
  obtain ⟨rest, hrest⟩ := List.head?_eq_some_iff.mp h.slash
  rw [isLegalTarget_iff, infix_target_iff htail (by decide) (by decide) (by decide), not_or]
  refine ⟨?_, h.not_upwards, htail.not_upwards⟩
  rw [String.toList_append, hrest]
  rfl

/-- The rules that look at the whole target find in it what they find in the path. -/
theorem ofTarget_withTail {method : Method} (htail : IsTail tail)
    (hmethod : method = .get ∧ path ≠ "/about" ∨ method = .head) :
    Destination.ofTarget method (path ++ tail) path = Destination.ofTarget method path path := by
  have hposts : Text.occursIn "/posts/".toList (path ++ tail).toList
      = Text.occursIn "/posts/".toList path.toList := by
    rw [Bool.eq_iff_iff, Text.occursIn_iff, Text.occursIn_iff,
      infix_target_iff htail (by decide) (by decide) (by decide), or_iff_left htail.no_post]
  have habout : path ++ tail ≠ "/about" := by
    intro heq
    have hmem : '?' ∈ (path ++ tail).toList ∨ '#' ∈ (path ++ tail).toList := by
      rw [String.toList_append]
      exact htail.mark.imp (fun hmark => List.mem_append_right _ (List.mem_of_head? hmark))
        (fun hmark => List.mem_append_right _ (List.mem_of_head? hmark))
    rw [heq] at hmem
    exact absurd hmem (by decide)
  have hplain : (decide (method = .get) && decide (path = "/about")) = false := by
    rcases hmethod with ⟨-, hne⟩ | rfl
    · rw [decide_eq_false hne, Bool.and_false]
    · rfl
  rw [Destination.ofTarget, Destination.ofTarget, hposts, hplain, decide_eq_false habout,
    Bool.and_false]

/-- A request leads where it leads without the tail of its target. -/
theorem destination_withTail (h : IsPath path) (htail : IsTail tail)
    (hmethod : r.method = .get ∧ path ≠ "/about" ∨ r.method = .head) :
    (r.withTarget (path ++ tail)).destination = (r.withTarget path).destination := by
  have hserved : r.method = .get ∨ r.method = .head := hmethod.imp_left And.left
  have hlegal : Destination.isLegalTarget path = true :=
    isLegalTarget_iff.mpr ⟨h.slash, h.not_upwards⟩
  have htailed := destination_of_legal (r := r.withTarget (path ++ tail)) hserved
    (isLegalTarget_withTail h htail)
  have hplain := destination_of_legal (r := r.withTarget path) hserved hlegal
  rw [path_withTail h htail] at htailed
  rw [path_withTarget h] at hplain
  exact htailed.trans ((ofTarget_withTail htail hmethod).trans hplain.symm)

end Request

/-! ## What is answered -/

namespace Site

variable {site : Site} {now : Moment} {r : Request} {path tail target : String} {s : State}

/-- Two responses are the same, unless each says of its own request that nothing was found. -/
inductive Agree (wall : Nat) (request other : Request) : Response → Response → Prop where
  | same {response : Response} (hfound : response.status ≠ .notFound) :
      Agree wall request other response response
  | notFound : Agree wall request other (.notFound request wall) (.notFound other wall)

theorem serveFile_withTarget (site : Site) (now : Moment) (r : Request) (target file : String) :
    Agree now.wall r (r.withTarget target) (site.serveFile now r file)
      (site.serveFile now (r.withTarget target) file) := by
  rw [serveFile, serveFile]
  cases site.files.look (filePath site.docRoot file) with
  | ok node =>
    cases node with
    | directory => exact .notFound
    | file content => exact .same (by rintro ⟨⟩)
  | error fault =>
    cases fault with
    | missing => exact .notFound
    | nul | tooLong | notDirectory | directory | notText => exact .same (by rintro ⟨⟩)

theorem fetch_withTarget (site : Site) (now : Moment) (r : Request) (target tenant : String)
    (resource : Resource) (s : State) :
    (site.fetch now (r.withTarget target) tenant resource s).2
        = (site.fetch now r tenant resource s).2 ∧
      Agree now.wall r (r.withTarget target) (site.fetch now r tenant resource s).1
        (site.fetch now (r.withTarget target) tenant resource s).1 := by
  rw [fetch, fetch, visit, visit]
  dsimp only [Request.withTarget]
  cases site.provider s.visits now.clock (query r.host tenant resource) with
  | breakdown => exact ⟨rfl, .same (by rintro ⟨⟩)⟩
  | fault cause => exact ⟨rfl, .notFound⟩
  | text document =>
    dsimp only
    by_cases hempty : document = ""
    · rw [if_pos hempty, if_pos hempty]
      exact ⟨rfl, .notFound⟩
    · rw [if_neg hempty, if_neg hempty]
      exact ⟨rfl, .same (by rintro ⟨⟩)⟩

/-- A site that leads two requests to the same destination treats them alike if they differ in
nothing but their target. -/
theorem answer_withTarget (site : Site) (now : Moment) (s : State)
    (hdest : (r.withTarget target).destination = r.destination) :
    (site.answer now (r.withTarget target) s).2 = (site.answer now r s).2 ∧
      Agree now.wall r (r.withTarget target) (site.answer now r s).1
        (site.answer now (r.withTarget target) s).1 := by
  rw [answer, answer, hdest]
  cases r.destination with
  | refused why => exact ⟨rfl, .same (by rintro ⟨⟩)⟩
  | nowhere => exact ⟨rfl, .notFound⟩
  | file file => exact ⟨rfl, serveFile_withTarget site now r target file⟩
  | resource resource =>
    dsimp only
    rw [show (r.withTarget target).host = r.host from rfl, render, render]
    split
    · dsimp only
      split
      · exact ⟨rfl, .same (by rintro ⟨⟩)⟩
      · exact fetch_withTarget site now r target _ resource _
    · exact fetch_withTarget site now r target _ resource s

/-- A query or a fragment that names no post and does not lead upwards has no part in the answer to
`HEAD`, and none in the answer to `GET` unless the path is that of the page `about`.  The provider
gets the same visits and the cache is left the same.  The response is the same, with its body and
its length, unless nothing is found.  In that case the two responses are alike but for their text,
which quotes the target. -/
theorem answer_withTail (site : Site) (now : Moment) (s : State) (r : Request)
    {path tail : String} (hpath : Request.IsPath path) (htail : Request.IsTail tail)
    (hmethod : r.method = .get ∧ path ≠ "/about" ∨ r.method = .head) :
    let plain := site.answer now (r.withTarget path) s
    let tailed := site.answer now (r.withTarget (path ++ tail)) s
    (tailed.1.kind = plain.1.kind ∧ tailed.1.status = plain.1.status ∧
      tailed.1.contentType = plain.1.contentType ∧ tailed.1.coding = plain.1.coding ∧
      tailed.1.keepAlive = plain.1.keepAlive) ∧
    tailed.2.visits = plain.2.visits ∧ tailed.2.cache = plain.2.cache ∧
    (plain.1.status ≠ .notFound → tailed.1 = plain.1) ∧
    (plain.1.status = .notFound → ∀ target ∈ [path, path ++ tail],
      (site.answer now (r.withTarget target) s).1
        = .text r .notFound .notFound now.wall
            ("The resource '" ++ target ++ "' was not found.")) := by
  intro plain tailed
  obtain ⟨hstate, hagree⟩ := answer_withTarget (r := r.withTarget path) site now s
    (Request.destination_withTail hpath htail hmethod)
  have hstate : tailed.2 = plain.2 := hstate
  change Agree now.wall (r.withTarget path) (r.withTarget (path ++ tail)) plain.1 tailed.1 at hagree
  suffices hresponse : (tailed.1.kind = plain.1.kind ∧ tailed.1.status = plain.1.status ∧
      tailed.1.contentType = plain.1.contentType ∧ tailed.1.coding = plain.1.coding ∧
      tailed.1.keepAlive = plain.1.keepAlive) ∧
      (plain.1.status ≠ .notFound → tailed.1 = plain.1) ∧
      (plain.1.status = .notFound → plain.1 = .notFound (r.withTarget path) now.wall ∧
        tailed.1 = .notFound (r.withTarget (path ++ tail)) now.wall) by
    obtain ⟨hhead, hfound, hmissing⟩ := hresponse
    refine ⟨hhead, congrArg State.visits hstate, congrArg State.cache hstate, hfound, ?_⟩
    intro hstatus
    obtain ⟨hplain, htailed⟩ := hmissing hstatus
    exact List.forall_mem_cons.mpr ⟨hplain, List.forall_mem_singleton.mpr htailed⟩
  generalize plain.1 = a at hagree ⊢
  generalize tailed.1 = b at hagree ⊢
  cases hagree with
  | same hfound => exact ⟨⟨rfl, rfl, rfl, rfl, rfl⟩, fun _ => rfl, fun h => absurd h hfound⟩
  | notFound => exact ⟨⟨rfl, rfl, rfl, rfl, rfl⟩, fun h => absurd rfl h, fun _ => ⟨rfl, rfl⟩⟩

/-- A query in the target of a post, one that has slashes and the name of a page in it. -/
theorem answer_with_a_query_for_a_post :
    let site : Site :=
      ⟨"", ⟨fun _ => none, []⟩, fun _ _ _ => .text "post", {}, fun _ => Codec.failing, {}⟩
    let r : Request := { method := .get, target := "/", version := .v11 }
    let s : State := { cache := ⟨1, []⟩ }
    Request.IsPath "/posts/7" ∧ Request.IsTail "?to=/about#x" ∧
      (r.method = .get ∧ "/posts/7" ≠ "/about" ∨ r.method = .head) ∧
      (site.answer ⟨0, 0⟩ (r.withTarget ("/posts/7" ++ "?to=/about#x")) s).1
        = site.rendered ⟨0, 0⟩ r "post" ∧
      (site.answer ⟨0, 0⟩ (r.withTarget ("/posts/7" ++ "?to=/about#x")) s).2.visits
        = [⟨0, .post 7, .text "post"⟩] := by
  intro site r s
  have hpath : Request.IsPath "/posts/7" := ⟨rfl, by decide, by decide, by decide⟩
  have htail : Request.IsTail "?to=/about#x" := ⟨Or.inl rfl, by decide, by decide⟩
  have hmethod : r.method = .get ∧ "/posts/7" ≠ "/about" ∨ r.method = .head :=
    Or.inl ⟨rfl, by decide⟩
  have hplain : site.answer ⟨0, 0⟩ (r.withTarget "/posts/7") s
      = (site.rendered ⟨0, 0⟩ r "post", { s with visits := [⟨0, .post 7, .text "post"⟩] }) := by
    decide +kernel
  obtain ⟨-, hvisits, -, hsame, -⟩ := answer_withTail site ⟨0, 0⟩ s r hpath htail hmethod
  rw [hplain] at hvisits hsame
  exact ⟨hpath, htail, hmethod, hsame (by rintro ⟨⟩), hvisits⟩

end Site

end ContentServer
