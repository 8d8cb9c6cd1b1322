import ContentServer.Site.Reads

/-!
# A library reads only its own files

Three files make a document: a body, a header and a footer.  For a page they stand below the
directory of its tenant, and for a post below `posts` and `layout`.  What else stands anywhere, or
for which host a page is asked, makes no difference to the document or to the fault
(`find_of_own_files`).

A tenant comes from the settings and could be any text, such as `..` or `/etc`.  The paths stay
where they should because of the check that comes first.  A plain name is not empty and holds no
slash, so that joining it to the root adds one directory and nothing else
(`FileTree.join_join`).  For any other name no file is read at all.
-/

namespace ContentServer

/-! ## Paths below a directory -/

theorem FileTree.join_of_getLast? {directory : String} {c : Char}
    (h : directory.toList.getLast? = some c) (hc : c ≠ '/') (name : String) :
    join directory name = directory ++ "/" ++ name := by
  have hne : directory ≠ "" := by
    rintro rfl
    cases h
  rw [join, if_neg]
  simp [h, hne, hc]

/-- What is joined to a directory with a name gets a slash in front. -/
theorem FileTree.join_join (name : String) (hne : name ≠ "") (hslash : '/' ∉ name.toList)
    (directory sub : String) :
    join (join directory name) sub = join directory name ++ "/" ++ sub := by
  have hchars : name.toList ≠ [] := by simpa using hne
  have hlast : name.toList.getLast? = some (name.toList.getLast hchars) :=
    List.getLast?_eq_some_getLast hchars
  refine join_of_getLast? (c := name.toList.getLast hchars) ?_ ?_ sub
  · rw [join]
    split <;> simp [List.getLast?_cons, hlast]
  · intro hc
    exact hslash (hc ▸ List.getLast_mem hchars)

namespace Library

/-! ## Plain names -/

/-- A letter or digit of ASCII, an underscore or a hyphen. -/
def IsPlain (c : Char) : Prop :=
  ('A' ≤ c ∧ c ≤ 'Z') ∨ ('a' ≤ c ∧ c ≤ 'z') ∨ ('0' ≤ c ∧ c ≤ '9') ∨ c = '_' ∨ c = '-'

theorem isPlain_iff {c : Char} :
    IsPlain c ↔ (c.isAlphanum || c == '_' || c == '-') = true := by
  have halphanum : c.isAlphanum = (decide ('A' ≤ c ∧ c ≤ 'Z') ||
      (decide ('a' ≤ c) && decide (c ≤ 'z')) || (decide ('0' ≤ c) && decide (c ≤ '9'))) := rfl
  simp [IsPlain, halphanum, or_assoc]

theorem isPlainName_iff {name : String} :
    isPlainName name = true ↔ name ≠ "" ∧ ∀ c ∈ name.toList, IsPlain c := by
  simp only [isPlainName, isPlain_iff]
  simp

theorem slash_not_mem_of_isPlainName {name : String} (h : isPlainName name = true) :
    '/' ∉ name.toList := by
  intro hslash
  have hplain := (isPlainName_iff.mp h).2 '/' hslash
  rw [isPlain_iff] at hplain
  exact absurd hplain (by decide)

/-! ## The files of a document -/

/-- The files of a page. -/
def pageFiles (lib : Library) (tenant page : String) : List String :=
  let directory := FileTree.join lib.root tenant
  [directory ++ "/pages/" ++ page ++ ".html", directory ++ "/layout/header.html",
    directory ++ "/layout/footer.html"]

/-- The files of a post. -/
def postFiles (lib : Library) (id : Nat) : List String :=
  let layout := FileTree.join lib.root "layout"
  [FileTree.join lib.root "posts" ++ "/" ++ toString id ++ ".html", layout ++ "/header.html",
    layout ++ "/footer.html"]

theorem paths_page (lib : Library) {tenant : String} (h : isPlainName tenant = true)
    (host page : String) : lib.paths (.page host tenant page) = lib.pageFiles tenant page := by
  have hne := (isPlainName_iff.mp h).1
  have hslash := slash_not_mem_of_isPlainName h
  have hsub (name : String) := FileTree.join_join tenant hne hslash lib.root name
  have hin (name : String) (hname : name ≠ "") (hno : '/' ∉ name.toList) (file : String) :
      FileTree.join (FileTree.join (lib.tenantPath tenant) name) file
        = FileTree.join lib.root tenant ++ "/" ++ name ++ "/" ++ file := by
    rw [FileTree.join_join name hname hno, tenantPath, hsub]
  have hpages := hin "pages" (by decide) (by decide)
  have hlayout := hin "layout" (by decide) (by decide)
  simp only [paths, documentPaths, pagePath, pageLayout, hpages, hlayout, pageFiles]
  simp [← String.toList_inj]

theorem paths_post (lib : Library) (id : Nat) : lib.paths (.post id) = lib.postFiles id := by
  have hposts := FileTree.join_join "posts" (by decide) (by decide) lib.root
  have hlayout := FileTree.join_join "layout" (by decide) (by decide) lib.root
  simp only [paths, documentPaths, postPath, postLayout, hposts, hlayout, postFiles]
  simp [← String.toList_inj]

/-- Nothing is read for a name that is not plain. -/
theorem find_page_of_not_plain (lib : Library) (files : FileTree) {tenant page : String}
    (h : ¬ (isPlainName page = true ∧ isPlainName tenant = true)) (host : String) :
    lib.find files (.page host tenant page) = .ok "" := by
  rw [find, Library.page, if_neg]
  simpa using h

/-! ## Two file trees -/

/-- A page only depends on the texts of its three files, and a post on those of its own.  Another
host makes no difference.  A page whose name or tenant is empty, or holds anything but letters,
digits, underscores and hyphens, is empty whatever stands in the files. -/
theorem find_of_own_files (lib : Library) (files files' : FileTree) :
    (∀ host host' tenant page : String,
      (∀ path ∈ lib.pageFiles tenant page, files.readText path = files'.readText path) →
        lib.find files (.page host tenant page) = lib.find files' (.page host' tenant page)) ∧
    (∀ host tenant page name : String, name = tenant ∨ name = page →
      name = "" ∨ (∃ c ∈ name.toList, ¬ IsPlain c) →
        lib.find files (.page host tenant page) = .ok "") ∧
    (∀ id : Nat,
      (∀ path ∈ lib.postFiles id, files.readText path = files'.readText path) →
        lib.find files (.post id) = lib.find files' (.post id)) := by
  refine ⟨?_, ?_, ?_⟩
  · intro host host' tenant page h
    by_cases hplain : isPlainName page = true ∧ isPlainName tenant = true
    · rw [← lib.paths_page hplain.2 host] at h
      exact lib.find_congr (.page host tenant page) h
    · rw [find_page_of_not_plain lib files hplain, find_page_of_not_plain lib files' hplain]
  · intro host tenant page name hname hodd
    refine find_page_of_not_plain lib files ?_ host
    have hnot : isPlainName name ≠ true := by
      rw [ne_eq, isPlainName_iff]
      rintro ⟨hne, hall⟩
      rcases hodd with rfl | ⟨c, hc, hodd⟩
      · exact hne rfl
      · exact hodd (hall c hc)
    rintro ⟨hpage, htenant⟩
    rcases hname with rfl | rfl
    · exact hnot htenant
    · exact hnot hpage
  · intro id h
    rw [← lib.paths_post id] at h
    exact lib.find_congr (.post id) h

/-- A page and a post stay as they are when another tenant gets a layout that cannot be read. -/
theorem find_beside_another_tenant :
    let lib : Library := ⟨"/content"⟩
    let page := (["content", "a", "pages", "index.html"], FileTree.Node.file [104, 105])
    let post := (["content", "posts", "7.html"], FileTree.Node.file [111, 107])
    let other := (["content", "b", "layout", "header.html"], FileTree.Node.file [255])
    let files := FileTree.ofEntries [page, post] []
    let files' := FileTree.ofEntries [page, post, other] []
    lib.find files (.page "x" "a" "index") = lib.find files' (.page "y" "a" "index") ∧
      lib.find files (.page "x" "../b" "index") = .ok "" ∧
      lib.find files (.post 7) = lib.find files' (.post 7) := by
  intro lib page post other files files'
  have hsame : ∀ path ∈ lib.pageFiles "a" "index" ++ lib.postFiles 7,
      ∀ place ∈ FileTree.places [] path, files.node? place = files'.node? place := by
    decide +kernel
  have hread : ∀ path ∈ lib.pageFiles "a" "index" ++ lib.postFiles 7,
      files.readText path = files'.readText path := fun path hpath =>
    FileTree.readText_congr (FileTree.find_congr path rfl (hsame path hpath))
  have hslash : ∃ c ∈ "../b".toList, ¬ IsPlain c :=
    ⟨'/', by decide, by rw [isPlain_iff]; decide⟩
  obtain ⟨hpages, hodd, hposts⟩ := find_of_own_files lib files files'
  exact ⟨hpages "x" "y" "a" "index" fun path h => hread path (List.mem_append_left _ h),
    hodd "x" "../b" "index" "../b" (Or.inl rfl) (Or.inr hslash),
    hposts 7 fun path h => hread path (List.mem_append_right _ h)⟩

end Library

end ContentServer
