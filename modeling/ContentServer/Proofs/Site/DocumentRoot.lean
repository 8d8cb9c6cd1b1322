import ContentServer.Proofs.Text.Lines
import ContentServer.Site
import Mathlib.Data.List.TakeWhile

/-!
# Files are served below the document root

The path that is opened for a request is the document root followed by the path of the request, as
they are written.  Nothing is decoded or put right.  That this stays below the document root rests
on two things.  The path of the request starts with a slash, so that its names come after those of
the document root.  And it holds no two points in a row, so that none of its names leads upwards
(`FileTree.foldl_turn`).

The document root itself may be written in any way, with names that lead upwards, empty ones and
slashes at its end.  So what counts is the place that it leads to, `FileTree.resolve`, and the
look-up of the opened path first goes the way to that place and then stays at or below it
(`FileTree.StaysBelow`).

The two points are looked for in the whole target, with its query.  A target that has them, or
that does not start with a slash, is refused before anything is looked at.
-/

namespace ContentServer

namespace FileTree

variable {root names : List String}

/-! ## Where paths lead -/

/-- Where the look-up of a path starts. -/
def origin (workingDirectory : List String) (path : String) : List String :=
  if path.toList.head? = some '/' then [] else workingDirectory

/-- The place that a path leads to, if there is something on the whole way. -/
def resolve (workingDirectory : List String) (path : String) : List String :=
  (components path).foldl turn (origin workingDirectory path)

/-- The look-up of a path goes the way to a directory and does not leave it from there on. -/
def StaysBelow (workingDirectory : List String) (directory path : String) : Prop :=
  ∃ way inside, places workingDirectory path = way ++ inside ∧
    way <+: places workingDirectory directory ∧
    way.getLast? = some (resolve workingDirectory directory) ∧
    ∀ place ∈ inside, resolve workingDirectory directory <+: place

theorem turn_of_ne {name : String} (h : name ≠ "..") (names : List String) :
    turn names name = names ++ [name].filter fun n => n ≠ "" && n ≠ "." := by
  by_cases hstay : name = "" ∨ name = "."
  · rcases hstay with rfl | rfl <;> simp [turn]
  · rw [not_or] at hstay
    simp [turn, h, hstay.1, hstay.2]

/-- Names that do not lead upwards only add to a place. -/
theorem foldl_turn (h : ".." ∉ names) (root : List String) :
    names.foldl turn root = root ++ names.filter fun n => n ≠ "" && n ≠ "." := by
  induction names generalizing root with
  | nil => simp
  | cons name names ih =>
    rw [List.mem_cons, not_or] at h
    rw [List.foldl_cons, turn_of_ne (Ne.symm h.1), ih h.2, List.append_assoc, ← List.filter_append]
    rfl

theorem prefix_of_mem_placesFrom (h : ".." ∉ names) {place : List String}
    (hplace : place ∈ placesFrom root names) : root <+: place := by
  induction names generalizing root with
  | nil => cases hplace
  | cons name names ih =>
    rw [List.mem_cons, not_or] at h
    have hturn : root <+: turn root name := by
      rw [turn_of_ne (Ne.symm h.1)]
      exact List.prefix_append _ _
    rcases List.mem_cons.mp hplace with rfl | hplace
    · exact hturn
    · exact hturn.trans (ih h.2 hplace)

theorem placesFrom_append (root names more : List String) :
    placesFrom root (names ++ more)
      = placesFrom root names ++ placesFrom (names.foldl turn root) more := by
  induction names generalizing root with
  | nil => rfl
  | cons name names ih => simp [placesFrom, ih]

theorem getLast?_placesFrom (h : names ≠ []) (root : List String) :
    (placesFrom root names).getLast? = some (names.foldl turn root) := by
  induction names generalizing root with
  | nil => exact absurd rfl h
  | cons name names ih =>
    rw [placesFrom, List.foldl_cons]
    cases names with
    | nil => rfl
    | cons next names =>
      have hrest := ih (List.cons_ne_nil next names) (turn root name)
      rw [List.getLast?_cons, hrest]
      rfl

theorem names_of_walk {t : FileTree} {p q : Place} (h : t.walk p names = .ok q) :
    q.names = names.foldl turn p.names := by
  induction names generalizing p with
  | nil => cases h; rfl
  | cons name names ih =>
    rw [walk] at h
    split at h
    · cases h
    · next next henter =>
      rw [List.foldl_cons, ← names_of_enter henter]
      exact ih h

/-- What is found stands at the place that the path leads to. -/
theorem names_of_find {t : FileTree} {path : String} {place : Place}
    (h : t.find path = .ok place) : place.names = resolve t.workingDirectory path := by
  rw [find] at h
  split at h
  · cases h
  · split at h
    · cases h
    · split at h
      · cases h
      · exact names_of_walk h

/-! ## Paths behind a directory -/

theorem components_ne_nil (path : String) : components path ≠ [] := by
  simp [components, List.splitOn_ne_nil]

theorem components_append {path : String} (hslash : path.toList.head? = some '/')
    (base : String) : components (base ++ path) = components base ++ (components path).tail := by
  obtain ⟨rest, hpath⟩ := List.head?_eq_some_iff.mp hslash
  simp only [components, String.toList_append, hpath, List.splitOn_append_cons_self,
    List.map_append]
  simp [List.splitOn_cons_eq_if_modifyHead]

theorem not_mem_components {path : String} (h : ¬ "..".toList <:+: path.toList) :
    ".." ∉ components path := by
  intro hup
  obtain ⟨w, hw, hname⟩ := List.mem_map.mp hup
  rw [← hname, String.toList_ofList] at h
  exact h (Text.infix_of_mem_splitOn hw)

/-- A directory without one slash at its end, if it has one. -/
def IsTrimmed (directory base : String) : Prop :=
  directory = base ++ "/" ∨ directory = base ∧ directory.toList.getLast? ≠ some '/'

variable {directory base path : String}

/-- There is one way to leave out the slash at the end of a directory. -/
theorem IsTrimmed.unique {other : String} (h : IsTrimmed directory base)
    (hother : IsTrimmed directory other) : base = other := by
  have hlast : ∀ b : String, (b ++ "/").toList.getLast? = some '/' := by simp
  rcases h with rfl | ⟨rfl, hbase⟩
  · rcases hother with heq | ⟨-, hne⟩
    · exact (String.append_left_inj "/").mp heq
    · exact absurd (hlast base) hne
  · rcases hother with rfl | ⟨rfl, -⟩
    · exact absurd (hlast other) hbase
    · rfl

theorem IsTrimmed.origin_append (h : IsTrimmed directory base) (hne : directory ≠ "")
    (hslash : path.toList.head? = some '/') (workingDirectory : List String) :
    origin workingDirectory (base ++ path) = origin workingDirectory directory := by
  rcases h with rfl | ⟨rfl, -⟩
  · cases hbase : base.toList <;> simp [origin, hbase, hslash]
  · cases hbase : directory.toList with
    | nil => exact absurd (by simpa using hbase) hne
    | cons c cs => simp [origin, hbase]

/-- The slash at the end of a directory leads nowhere else. -/
theorem IsTrimmed.foldl_components (h : IsTrimmed directory base) (hne : directory ≠ "")
    (hslash : path.toList.head? = some '/') (workingDirectory : List String) :
    (components base).foldl turn (origin workingDirectory (base ++ path))
      = resolve workingDirectory directory := by
  rw [h.origin_append hne hslash, resolve]
  rcases h with rfl | ⟨rfl, -⟩
  · rw [components_append rfl, List.foldl_append]
    rfl
  · rfl

theorem IsTrimmed.resolve_append (h : IsTrimmed directory base) (hne : directory ≠ "")
    (hslash : path.toList.head? = some '/') (hup : ¬ "..".toList <:+: path.toList)
    (workingDirectory : List String) :
    resolve workingDirectory (base ++ path)
      = resolve workingDirectory directory
        ++ (components path).filter fun n => n ≠ "" && n ≠ "." := by
  have hnames := not_mem_components hup
  have hfirst : components path = "" :: (components path).tail := by
    obtain ⟨rest, hpath⟩ := List.head?_eq_some_iff.mp hslash
    simp [components, hpath, List.splitOn_cons_eq_if_modifyHead]
  rw [resolve, components_append hslash, List.foldl_append,
    h.foldl_components hne hslash, foldl_turn (fun hmem => hnames (List.mem_of_mem_tail hmem))]
  -- The empty name in front of the first slash leads nowhere.
  conv_rhs => rw [hfirst]
  rfl

theorem IsTrimmed.staysBelow_append (h : IsTrimmed directory base) (hne : directory ≠ "")
    (hslash : path.toList.head? = some '/') (hup : ¬ "..".toList <:+: path.toList)
    (workingDirectory : List String) :
    StaysBelow workingDirectory directory (base ++ path) := by
  have hroot := h.foldl_components hne hslash workingDirectory
  refine ⟨placesFrom (origin workingDirectory (base ++ path)) (components base),
    placesFrom (resolve workingDirectory directory) (components path).tail, ?_, ?_, ?_, ?_⟩
  · rw [← hroot, ← placesFrom_append, ← components_append hslash]
    rfl
  · rw [h.origin_append hne hslash]
    rcases h with rfl | ⟨rfl, -⟩
    · show _ <+: placesFrom (origin workingDirectory (base ++ "/")) (components (base ++ "/"))
      rw [components_append rfl, placesFrom_append]
      exact List.prefix_append _ _
    · exact List.prefix_rfl
  · rw [getLast?_placesFrom (components_ne_nil base), hroot]
  · intro place hplace
    have hnames := not_mem_components hup
    exact prefix_of_mem_placesFrom (fun hmem => hnames (List.mem_of_mem_tail hmem)) hplace

end FileTree

/-! ## Requests for files -/

namespace Request

theorem toList_path (r : Request) :
    r.path.toList = r.target.toList.takeWhile fun c => c != '?' && c != '#' := by
  rw [path, String.toList_ofList]

theorem path_prefix_target (r : Request) : r.path.toList <+: r.target.toList := by
  rw [toList_path]
  exact List.takeWhile_prefix _

theorem not_mem_path (r : Request) : '?' ∉ r.path.toList ∧ '#' ∉ r.path.toList := by
  rw [toList_path]
  constructor
  · intro h
    simpa using List.mem_takeWhile_imp h
  · intro h
    simpa using List.mem_takeWhile_imp h

theorem head?_path {r : Request} (h : r.target.toList.head? = some '/') :
    r.path.toList.head? = some '/' := by
  obtain ⟨rest, htarget⟩ := List.head?_eq_some_iff.mp h
  simp [toList_path, htarget]

theorem isLegalTarget_iff {target : String} :
    Destination.isLegalTarget target = true ↔
      target.toList.head? = some '/' ∧ ¬ "..".toList <:+: target.toList := by
  rw [Destination.isLegalTarget, ← Text.occursIn_iff]
  simp

theorem ofTarget_eq_file {method : Method} {target path path' : String}
    (h : Destination.ofTarget method target path = .file path') : path' = path := by
  rw [Destination.ofTarget] at h
  split at h
  · cases h
  · split at h
    · cases h
    · split at h
      · split at h <;> cases h
      · cases h
        rfl

/-- A request that leads to a file has a path that starts with a slash and does not lead upwards. -/
theorem of_destination_eq_file {r : Request} {path : String} (h : r.destination = .file path) :
    path = r.path ∧ r.path.toList.head? = some '/' ∧ ¬ "..".toList <:+: r.path.toList := by
  rw [destination] at h
  split at h
  · cases h
  · split at h
    · cases h
    · next hlegal =>
      rw [Bool.not_eq_true, Bool.not_eq_false', isLegalTarget_iff] at hlegal
      exact ⟨ofTarget_eq_file h, head?_path hlegal.1,
        fun hup => hlegal.2 (hup.trans r.path_prefix_target.isInfix)⟩

/-- Where a request with a served method and a legal target leads is a matter of its target. -/
theorem destination_of_legal {r : Request} (hmethod : r.method = .get ∨ r.method = .head)
    (hlegal : Destination.isLegalTarget r.target = true) :
    r.destination = Destination.ofTarget r.method r.target r.path := by
  have hserved : ¬ (r.method != .get && r.method != .head) = true := by
    rcases hmethod with h | h <;> simp [h]
  rw [destination, if_neg hserved, hlegal, Bool.not_true, if_neg Bool.false_ne_true]

theorem destination_of_illegal {r : Request}
    (h : r.target.toList.head? ≠ some '/' ∨ "..".toList <:+: r.target.toList) :
    ∃ why, r.destination = .refused why := by
  have hlegal : ¬ Destination.isLegalTarget r.target = true := by
    rw [isLegalTarget_iff]
    rintro ⟨hslash, hup⟩
    rcases h with h | h
    · exact h hslash
    · exact hup h
  rw [destination]
  split
  · exact ⟨_, rfl⟩
  · rw [if_pos (by simpa using hlegal)]
    exact ⟨_, rfl⟩

end Request

namespace Site

/-- The path that is opened to answer a request, if there is one. -/
def opened? (site : Site) (request : Request) : Option String :=
  match request.destination with
  | .file path => some (filePath site.docRoot path)
  | _ => none

theorem exists_trimmed (docRoot path : String) :
    ∃ base, FileTree.IsTrimmed docRoot base ∧ filePath docRoot path = base ++ path := by
  rw [filePath]
  split
  · next hslash =>
    refine ⟨String.ofList docRoot.toList.dropLast, Or.inl ?_, rfl⟩
    have hchars := List.dropLast_append_getLast? '/' hslash
    rw [← String.toList_inj]
    simpa using hchars.symm
  · next hslash => exact ⟨docRoot, Or.inr ⟨rfl, hslash⟩, rfl⟩

/-- No other file than the opened one has a part in an answer. -/
theorem answer_withFiles (site : Site) (now : Moment) (request : Request) (s : State)
    {files : FileTree} (h : ∀ path ∈ site.opened? request, files.look path = site.files.look path) :
    (site.withFiles files).answer now request s = site.answer now request s := by
  rw [opened?] at h
  rw [answer, answer]
  cases hdest : request.destination with
  | refused why => rfl
  | nowhere => rfl
  | resource resource => rfl
  | file path =>
    rw [hdest] at h
    have hlook : (site.withFiles files).files.look (filePath site.docRoot path)
        = site.files.look (filePath site.docRoot path) := h _ rfl
    dsimp only
    rw [serveFile, serveFile]
    dsimp only [withFiles] at hlook ⊢
    rw [hlook]

/-- An answer opens at most one path, which is the document root, without one slash at its end,
followed by the path of the request.  It leads to the place of the document root and then to places
below it.  For a target that does not start with a slash, or that holds two points in a row
anywhere, nothing is opened, the provider is not asked, the cache stays as it is, and the status is
400. -/
theorem opened_below_docRoot (site : Site) (hroot : site.docRoot ≠ "") (now : Moment)
    (request : Request) (s : State) :
    (∀ files : FileTree,
      (∀ path ∈ site.opened? request, files.look path = site.files.look path) →
        (site.withFiles files).answer now request s = site.answer now request s) ∧
    (∀ path ∈ site.opened? request,
      (∃ base, FileTree.IsTrimmed site.docRoot base ∧ path = base ++ request.path) ∧
      request.path.toList.head? = some '/' ∧ ¬ "..".toList <:+: request.path.toList ∧
      '?' ∉ request.path.toList ∧ '#' ∉ request.path.toList ∧
      FileTree.StaysBelow site.files.workingDirectory site.docRoot path ∧
      ∀ place, site.files.find path = .ok place →
        place.names = FileTree.resolve site.files.workingDirectory site.docRoot
          ++ (FileTree.components request.path).filter fun n => n ≠ "" && n ≠ ".") ∧
    (request.target.toList.head? ≠ some '/' ∨ "..".toList <:+: request.target.toList →
      site.opened? request = none ∧ (site.answer now request s).2 = s ∧
        (site.answer now request s).1.status.code = 400) := by
  refine ⟨fun files h => answer_withFiles site now request s h, ?_, ?_⟩
  · intro path hpath
    rw [opened?] at hpath
    split at hpath
    · next found hdest =>
      obtain ⟨rfl, hslash, hup⟩ := Request.of_destination_eq_file hdest
      obtain ⟨base, htrim, hfile⟩ := exists_trimmed site.docRoot request.path
      obtain rfl : filePath site.docRoot request.path = path := Option.some.inj hpath
      obtain ⟨hquery, hfragment⟩ := request.not_mem_path
      rw [hfile]
      refine ⟨⟨base, htrim, rfl⟩, hslash, hup, hquery, hfragment,
        htrim.staysBelow_append hroot hslash hup _, fun place hplace => ?_⟩
      rw [FileTree.names_of_find hplace]
      exact htrim.resolve_append hroot hslash hup _
    · cases hpath
  · intro hillegal
    obtain ⟨why, hdest⟩ := Request.destination_of_illegal hillegal
    rw [opened?, answer, hdest]
    exact ⟨rfl, rfl, rfl⟩

/-- A file beside the working directory, a path that leads to it with a query, and a target that
leads upwards in its query. -/
theorem opened_below_a_docRoot_beside :
    let files := FileTree.ofEntries
      [(["srv", "www", "a.txt"], .file [104, 105]), (["srv", "app", "key"], .file [107])]
      ["srv", "app"]
    let provider : Provider := fun _ _ _ => .text "page"
    let site : Site := ⟨"../www/", files, provider, {}, fun _ => Codec.failing, {}⟩
    let request : Request := { method := .get, target := "/.//a.txt?b", version := .v11 }
    let upwards : Request := { method := .get, target := "/?/../app/key", version := .v11 }
    let s : State := { cache := ⟨1, []⟩ }
    site.docRoot ≠ "" ∧
      (∃ path ∈ site.opened? request,
        FileTree.StaysBelow files.workingDirectory "../www/" path ∧
        ∃ place, files.find path = .ok place ∧ place.names = ["srv", "www", "a.txt"]) ∧
      site.opened? upwards = none ∧ (site.answer ⟨0, 0⟩ upwards s).2 = s ∧
        (site.answer ⟨0, 0⟩ upwards s).1.status.code = 400 := by
  intro files provider site request upwards s
  have hroot : site.docRoot ≠ "" := by decide
  have hpath : "../www/.//a.txt" ∈ site.opened? request := by decide
  have hfind : files.find "../www/.//a.txt" = .ok ⟨["srv", "www", "a.txt"], .file [104, 105]⟩ := by
    decide +kernel
  obtain ⟨-, -, -, -, -, hbelow, -⟩ :=
    (opened_below_docRoot site hroot ⟨0, 0⟩ request s).2.1 _ hpath
  have hup : "..".toList <:+: upwards.target.toList := by decide
  exact ⟨hroot, ⟨_, hpath, hbelow, _, hfind, rfl⟩,
    (opened_below_docRoot site hroot ⟨0, 0⟩ upwards s).2.2 (Or.inr hup)⟩

end Site

end ContentServer
