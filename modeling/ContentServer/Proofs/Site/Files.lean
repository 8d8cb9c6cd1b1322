import ContentServer.Proofs.FileTree.Lookup
import ContentServer.Proofs.Http.Writing
import ContentServer.Proofs.Site.DocumentRoot

/-!
# Files are served as they are

A request leads to a file unless it is refused or names a document that is rendered for `GET`
(`Request.AsksForFile`).  What it is answered is a matter of the look-up of its path behind the
document root, and of nothing else.

* If the look-up arrives at a file, the file is sent with its length and all of its bytes.
* If it arrives at a directory, or if it fails because something is missing, the answer is 404.
* If it fails for another reason, the answer is 500 with the text of that failure.

The target of a request is its path with the query and the fragment behind it.  These two stand
behind the first `?` or `#`, so they have no part in the look-up.
-/

namespace ContentServer

/-! ## Requests for files -/

namespace Destination

/-- Of the paths that start with a slash only the slash alone has no segments. -/
theorem isEmpty_segments_iff {path : String} (hslash : path.toList.head? = some '/') :
    (segments path.toList).isEmpty = true ↔ path = "/" := by
  obtain ⟨rest, hpath⟩ := List.head?_eq_some_iff.mp hslash
  rw [← String.toList_inj, segments, if_pos hslash, hpath, List.tail_cons]
  cases rest with
  | nil => decide
  | cons c cs =>
    rw [List.isEmpty_cons, if_neg Bool.false_ne_true, List.isEmpty_iff]
    exact iff_of_false (List.splitOn_ne_nil '/' _) (by simp)

end Destination

namespace Request

variable {r : Request}

/-- The path or the target names a document that is rendered for `GET`. -/
def NamesDocument (r : Request) : Prop :=
  r.path = "/" ∨ r.target = "/about" ∨ "/posts/".toList <:+: r.target.toList

instance (r : Request) : Decidable r.NamesDocument :=
  inferInstanceAs (Decidable
    (r.path = "/" ∨ r.target = "/about" ∨ "/posts/".toList <:+: r.target.toList))

/-- A request with a legal target that names no document to be rendered. -/
structure AsksForFile (r : Request) : Prop where
  method : r.method = .get ∨ r.method = .head
  slash : r.target.toList.head? = some '/'
  not_upwards : ¬ "..".toList <:+: r.target.toList
  not_rendered : r.method = .get → ¬ r.NamesDocument

/-- The target is the path with what stands behind the first `?` or `#`. -/
theorem exists_target_eq (r : Request) :
    ∃ rest, r.target = r.path ++ rest ∧ rest.toList.head? ∈ [none, some '?', some '#'] := by
  let isPath : Char → Bool := fun c => c != '?' && c != '#'
  refine ⟨String.ofList (r.target.toList.dropWhile isPath), ?_, ?_⟩
  · rw [← String.toList_inj, String.toList_append, toList_path, String.toList_ofList]
    exact List.takeWhile_append_dropWhile.symm
  · rw [String.toList_ofList]
    cases hrest : r.target.toList.dropWhile isPath with
    | nil => simp
    | cons c cs =>
      have hc := List.head?_dropWhile_not isPath r.target.toList
      rw [hrest] at hc
      have hmark : c = '?' ∨ c = '#' := by simpa [isPath, or_iff_not_imp_left] using hc
      rcases hmark with rfl | rfl <;> simp

theorem AsksForFile.destination (h : r.AsksForFile) : r.destination = .file r.path := by
  rw [destination_of_legal h.method (isLegalTarget_iff.mpr ⟨h.slash, h.not_upwards⟩),
    Destination.ofTarget]
  by_cases hget : r.method = .get
  · obtain ⟨hindex, habout, hposts⟩ :
        r.path ≠ "/" ∧ r.target ≠ "/about" ∧ ¬ "/posts/".toList <:+: r.target.toList := by
      simpa only [NamesDocument, not_or] using h.not_rendered hget
    rw [Ne, ← Destination.isEmpty_segments_iff (head?_path h.slash)] at hindex
    rw [← Text.occursIn_iff] at hposts
    simp only [hget, hindex, habout, hposts, decide_true, decide_false, Bool.and_false,
      Bool.false_eq_true, if_false]
  · simp only [hget, decide_false, Bool.false_and, Bool.false_eq_true, if_false]

end Request

/-! ## Answers to requests for files -/

namespace Site

open FileTree (PathFault)

variable {site : Site} {now : Moment} {request : Request} {path : String}

theorem serveFile_of_file {names : List String} {content : Bytes}
    (h : site.files.Arrives (filePath site.docRoot path) ⟨names, .file content⟩) :
    site.serveFile now request path
      = .file request now.wall content content.length
          (MediaType.ofPath (filePath site.docRoot path)) := by
  have hlook := FileTree.look_eq_ok_iff.mpr ⟨names, h⟩
  rw [serveFile, hlook]

/-- A directory is answered as if it were missing. -/
theorem serveFile_of_missing
    (h : (∃ names, site.files.Arrives (filePath site.docRoot path) ⟨names, .directory⟩) ∨
      site.files.Fails (filePath site.docRoot path) .missing) :
    site.serveFile now request path = .notFound request now.wall := by
  rcases h with h | h
  · have hlook := FileTree.look_eq_ok_iff.mpr h
    rw [serveFile, hlook]
  · have hlook := FileTree.look_eq_error_iff.mpr h
    rw [serveFile, hlook]

theorem serveFile_of_fails {fault : PathFault} (hfault : fault ∈ [.nul, .tooLong, .notDirectory])
    (h : site.files.Fails (filePath site.docRoot path) fault) :
    site.serveFile now request path
      = .serverError request now.wall fault.system.text := by
  have hlook := FileTree.look_eq_error_iff.mpr h
  have hmissing : fault ≠ .missing := by
    rintro rfl
    exact absurd hfault (by decide)
  rw [serveFile, hlook]
  cases fault with
  | missing => exact absurd rfl hmissing
  | nul | tooLong | notDirectory | directory | notText => rfl

/-! ## The status -/

variable (now request)

theorem status_of_file
    (h : ∃ names content, site.files.Arrives (filePath site.docRoot path) ⟨names, .file content⟩) :
    (site.serveFile now request path).status.code = 200 ∧
      (site.serveFile now request path).kind = .staticFile := by
  obtain ⟨names, content, h⟩ := h
  rw [serveFile_of_file h]
  exact ⟨rfl, rfl⟩

theorem status_of_missing
    (h : (∃ names, site.files.Arrives (filePath site.docRoot path) ⟨names, .directory⟩) ∨
      site.files.Fails (filePath site.docRoot path) .missing) :
    (site.serveFile now request path).status.code = 404 := by
  rw [serveFile_of_missing h]
  rfl

theorem status_of_fails
    (h : ∃ fault ∈ [PathFault.nul, .tooLong, .notDirectory],
      site.files.Fails (filePath site.docRoot path) fault) :
    (site.serveFile now request path).status.code = 500 := by
  obtain ⟨fault, hfault, h⟩ := h
  rw [serveFile_of_fails hfault h]
  rfl

/-- A response that says what the look-up of a path comes to. -/
structure Follows (t : FileTree) (now : Moment) (request : Request) (path : String)
    (response : Response) : Prop where
  file_iff : response.status.code = 200 ∧ response.kind = .staticFile ↔
    ∃ names content, t.Arrives path ⟨names, .file content⟩
  length : ∀ names content, t.Arrives path ⟨names, .file content⟩ →
    response.contentLength = content.length ∧
      Reply.announced? (Bytes.ofText response.head) = some content.length
  write_get : ∀ names content, t.Arrives path ⟨names, .file content⟩ → request.method = .get →
    response.write = (Bytes.ofText response.head ++ content, .ok content.length)
  write_head : ∀ names content, t.Arrives path ⟨names, .file content⟩ → request.method = .head →
    response.write = (Bytes.ofText response.head, .ok 0)
  missing_iff : response.status.code = 404 ↔
    (∃ names, t.Arrives path ⟨names, .directory⟩) ∨ t.Fails path .missing
  fails_iff : response.status.code = 500 ↔
    ∃ fault ∈ [PathFault.nul, .tooLong, .notDirectory], t.Fails path fault
  text : ∀ fault ∈ [PathFault.nul, .tooLong, .notDirectory], t.Fails path fault →
    response = .serverError request now.wall fault.system.text

/-- The three statuses tell the three outcomes of a look-up apart. -/
theorem serveFile_follows (site : Site) (now : Moment) (request : Request) (path : String) :
    Follows site.files now request (filePath site.docRoot path)
      (site.serveFile now request path) := by
  have hcases := site.files.file_or_missing_or_fails (filePath site.docRoot path)
  -- The status of one outcome rules the other two out.
  constructor
  · refine ⟨fun hstatus => ?_, status_of_file now request⟩
    rcases hcases with h | h | h
    · exact h
    · have := status_of_missing now request h
      omega
    · have := status_of_fails now request h
      omega
  · intro names content h
    rw [serveFile_of_file h]
    exact ⟨rfl, Response.announced?_head (MediaType.not_mem_ofPath _)⟩
  · intro names content h hget
    have hhead : request.method ≠ .head := by
      rw [hget]
      decide
    rw [serveFile_of_file h, Response.write_file_of_ne_head hhead, List.take_length,
      if_neg (Nat.lt_irrefl _)]
  · intro names content h hhead
    rw [serveFile_of_file h, Response.write_file_of_head hhead]
  · refine ⟨fun hstatus => ?_, status_of_missing now request⟩
    rcases hcases with h | h | h
    · have := (status_of_file now request h).1
      omega
    · exact h
    · have := status_of_fails now request h
      omega
  · refine ⟨fun hstatus => ?_, status_of_fails now request⟩
    rcases hcases with h | h | h
    · have := (status_of_file now request h).1
      omega
    · have := status_of_missing now request h
      omega
    · exact h
  · intro fault hfault h
    exact serveFile_of_fails hfault h

/-- A request for a file is answered by what the look-up of its path behind the document root comes
to.  A file is sent as it is.  A directory and what is missing are answered with 404, and every
other failure with 500 and its text.  The query and the fragment of the target are not looked up,
and no other file has a part in the answer. -/
theorem answer_of_lookup (site : Site) (now : Moment) (s : State) {request : Request}
    (h : request.AsksForFile) :
    (∃ rest, request.target = request.path ++ rest ∧
      rest.toList.head? ∈ [none, some '?', some '#']) ∧
    '?' ∉ request.path.toList ∧ '#' ∉ request.path.toList ∧
    ∃ base, FileTree.IsTrimmed site.docRoot base ∧
      (∀ files : FileTree,
        files.look (base ++ request.path) = site.files.look (base ++ request.path) →
          (site.withFiles files).answer now request s = site.answer now request s) ∧
      Follows site.files now request (base ++ request.path) (site.answer now request s).1 := by
  obtain ⟨hquery, hfragment⟩ := request.not_mem_path
  obtain ⟨base, htrim, hpath⟩ := exists_trimmed site.docRoot request.path
  refine ⟨request.exists_target_eq, hquery, hfragment, base, htrim, fun files hlook => ?_, ?_⟩
  · refine answer_withFiles site now request s fun path hopened => ?_
    rw [opened?, h.destination] at hopened
    cases hopened
    rw [hpath]
    exact hlook
  · have hfollows := serveFile_follows site now request request.path
    rw [hpath] at hfollows
    rw [answer, h.destination]
    exact hfollows

/-- A file that is named with a point, an empty name and a query, and the same file with a slash
behind it. -/
theorem answer_of_lookup_in_sample :
    let site : Site :=
      ⟨"/a/d/../", FileTree.sample, fun _ _ _ => .text "page", {}, fun _ => Codec.failing, {}⟩
    let request : Request := { method := .get, target := "/.//f?q", version := .v11 }
    let inside : Request := { method := .head, target := "/f/#top", version := .v11 }
    let s : State := { cache := ⟨1, []⟩ }
    request.AsksForFile ∧ inside.AsksForFile ∧
      (site.answer ⟨0, 0⟩ request s).1.write
        = (Bytes.ofText (site.answer ⟨0, 0⟩ request s).1.head ++ [120], .ok 1) ∧
      (site.answer ⟨0, 0⟩ inside s).1
        = .serverError inside 0 "Not a directory (os error 20)" := by
  intro site request inside s
  have hrequest : request.AsksForFile :=
    ⟨Or.inl rfl, by decide, by decide, fun _ => by decide⟩
  have hinside : inside.AsksForFile := ⟨Or.inr rfl, by decide, by decide, nofun⟩
  have htrimmed : FileTree.IsTrimmed site.docRoot "/a/d/.." := Or.inl rfl
  obtain ⟨-, -, -, base, hbase, -, hfile⟩ := answer_of_lookup site ⟨0, 0⟩ s hrequest
  obtain ⟨-, -, -, other, hother, -, hfailed⟩ := answer_of_lookup site ⟨0, 0⟩ s hinside
  rw [hbase.unique htrimmed] at hfile
  rw [hother.unique htrimmed] at hfailed
  refine ⟨hrequest, hinside, ?_, ?_⟩
  · have harrives : site.files.find ("/a/d/.." ++ request.path)
        = .ok ⟨["a", "f"], .file [120]⟩ := by decide +kernel
    exact hfile.write_get _ _ (FileTree.find_eq_ok_iff.mp harrives) rfl
  · have hfails : site.files.find ("/a/d/.." ++ inside.path) = .error .notDirectory := by
      decide +kernel
    exact hfailed.text .notDirectory (by decide) (FileTree.find_eq_error_iff.mp hfails)

end Site

end ContentServer
