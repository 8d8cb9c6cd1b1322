import ContentServer.Proofs.FileTree.Lookup
import ContentServer.Proofs.Site.Documents
import Mathlib.Data.List.Infix

/-!
# Rendering is exact

A document is put together from three files, or not at all.  `Renders` lists the ways in which this
ends, and the first of them that applies decides.

* If the body is missing, the document is empty, whatever stands in the layout.
* If one of the three cannot be read for another reason, there is no document but a fault.  It names
  the first such file, in the order body, header, footer.
* Otherwise the document is the header, the body and the footer.  If the body has a title, the first
  placeholder gives way to it, be it in the layout, in the body or across a join (`Title.Filled`).

Headings of the layout do not count, and a title that holds a placeholder is not filled in again.
-/

namespace ContentServer

/-! ## Filling in a title -/

/-- Putting other elements in place of a first occurrence. -/
theorem Text.replaceFirst_append {α : Type} [BEq α] [LawfulBEq α] {pat before after : List α}
    (hfirst : ∀ m < before.length, ¬ pat <+: (before ++ (pat ++ after)).drop m) (new : List α) :
    replaceFirst pat new (before ++ (pat ++ after)) = before ++ (new ++ after) := by
  have hindex : firstIndex? pat (before ++ (pat ++ after)) = some before.length := by
    rw [firstIndex?_eq_some_iff, List.drop_left]
    exact ⟨by simp, List.prefix_append _ _, hfirst⟩
  rw [replaceFirst, hindex]
  dsimp only
  rw [List.take_left, ← List.drop_drop, List.drop_left, List.drop_left]

namespace Title

variable {body document before after title result : String}

/-- The first placeholder of a document stands behind one part of it and before another. -/
structure FirstPlaceholder (document before after : String) : Prop where
  parts : document = before ++ placeholder ++ after
  first : ∀ before' after' : String, document = before' ++ placeholder ++ after' →
    before.length ≤ before'.length

/-- A document with the title of its body filled in. -/
inductive Filled (body document : String) : String → Prop where
  /-- The body has no title. -/
  | untitled (htitle : ofDocument? body = none) : Filled body document document
  /-- There is no place for a title. -/
  | no_placeholder (h : ∀ before after : String, document ≠ before ++ placeholder ++ after) :
      Filled body document document
  /-- The first placeholder gives way to the title. -/
  | filled {title before after : String} (htitle : ofDocument? body = some title)
      (h : FirstPlaceholder document before after) :
      Filled body document (before ++ ("<title>" ++ title ++ "</title>") ++ after)

/-- A placeholder stands at a place of a document if and only if a part of that length is before
it. -/
theorem placeholder_prefix_iff {m : Nat} (hm : m ≤ document.toList.length) :
    placeholder.toList <+: document.toList.drop m ↔
      ∃ before after : String, document = before ++ placeholder ++ after ∧ before.length = m := by
  constructor
  · rintro ⟨rest, hrest⟩
    refine ⟨String.ofList (document.toList.take m), String.ofList rest, ?_, ?_⟩
    · rw [← String.toList_inj]
      simp only [String.toList_append, String.toList_ofList]
      rw [List.append_assoc, hrest, List.take_append_drop]
    · rw [String.length_ofList, List.length_take, Nat.min_eq_left hm]
  · rintro ⟨before, after, rfl, rfl⟩
    simp only [String.toList_append, ← String.length_toList, List.append_assoc, List.drop_left]
    exact List.prefix_append _ _

theorem insert_of_first (h : FirstPlaceholder document before after) (title : String) :
    insert title document = before ++ ("<title>" ++ title ++ "</title>") ++ after := by
  have hchars : document.toList = before.toList ++ (placeholder.toList ++ after.toList) := by
    rw [h.parts]
    simp only [String.toList_append, List.append_assoc]
  have hfirst : ∀ m < before.toList.length, ¬ placeholder.toList <+:
      (before.toList ++ (placeholder.toList ++ after.toList)).drop m := by
    intro m hm hp
    have hle : m ≤ document.toList.length := by
      rw [hchars, List.length_append]
      omega
    rw [← hchars, placeholder_prefix_iff hle] at hp
    obtain ⟨before', after', hparts, hlength⟩ := hp
    have := h.first before' after' hparts
    rw [String.length_toList] at hm
    omega
  rw [insert, hchars, Text.replaceFirst_append hfirst, ← String.toList_inj]
  simp only [String.toList_append, String.toList_ofList, List.append_assoc]

theorem insert_of_no_placeholder
    (h : ∀ before after : String, document ≠ before ++ placeholder ++ after) (title : String) :
    insert title document = document := by
  have hnone : Text.firstIndex? placeholder.toList document.toList = none := by
    rw [Option.eq_none_iff_forall_ne_some]
    intro i hi
    obtain ⟨hle, hp, -⟩ := (Text.firstIndex?_eq_some_iff _ _).mp hi
    obtain ⟨before, after, hparts, -⟩ := (placeholder_prefix_iff hle).mp hp
    exact h before after hparts
  rw [insert, Text.replaceFirst, hnone, String.ofList_toList]

/-- A document has a first placeholder if it has any. -/
theorem exists_first (h : document = before ++ placeholder ++ after) :
    ∃ before after, FirstPlaceholder document before after := by
  have hsome : ∃ i, Text.firstIndex? placeholder.toList document.toList = some i := by
    rw [← Option.isSome_iff_exists, ← Text.occursIn, Text.occursIn_iff, h]
    simp only [String.toList_append]
    exact ⟨_, _, rfl⟩
  obtain ⟨i, hi⟩ := hsome
  obtain ⟨hle, hp, hno⟩ := (Text.firstIndex?_eq_some_iff _ _).mp hi
  obtain ⟨before, after, hparts, rfl⟩ := (placeholder_prefix_iff hle).mp hp
  refine ⟨before, after, hparts, fun before' after' hparts' => ?_⟩
  refine Nat.le_of_not_lt fun hlt => hno before'.length hlt ?_
  exact (placeholder_prefix_iff (by omega)).mpr ⟨before', after', hparts', rfl⟩

end Title

namespace Library

variable {files : FileTree} {header body footer result : String}

/-- Three parts make a document with the title of the body filled in. -/
theorem filled_assemble (header body footer : String) :
    Title.Filled body (header ++ body ++ footer) (assemble header body footer) := by
  rw [assemble]
  cases htitle : Title.ofDocument? body with
  | none => exact .untitled htitle
  | some title =>
    dsimp only
    by_cases h : ∃ before after : String,
        header ++ body ++ footer = before ++ Title.placeholder ++ after
    · obtain ⟨_, _, hparts⟩ := h
      obtain ⟨before, after, hfirst⟩ := Title.exists_first hparts
      rw [Title.insert_of_first hfirst]
      exact .filled htitle hfirst
    · have hnone : ∀ before after : String,
          header ++ body ++ footer ≠ before ++ Title.placeholder ++ after :=
        fun before after hparts => h ⟨before, after, hparts⟩
      rw [Title.insert_of_no_placeholder hnone]
      exact .no_placeholder hnone

theorem assemble_of_filled (h : Title.Filled body (header ++ body ++ footer) result) :
    assemble header body footer = result := by
  rw [assemble]
  generalize hdocument : header ++ body ++ footer = document at h
  cases h with
  | untitled htitle => rw [htitle]
  | no_placeholder h =>
    cases Title.ofDocument? body with
    | none => rfl
    | some title => exact Title.insert_of_no_placeholder h title
  | filled htitle h =>
    rw [htitle]
    exact Title.insert_of_first h _

/-! ## Reading the parts -/

/-- The part of a document that is read from a path: the text of the file, or nothing if the file is
missing. -/
inductive IsPart (files : FileTree) (path : String) : String → Prop where
  | text {text : String} (h : files.Reading path (.ok text)) : IsPart files path text
  | missing (h : files.Reading path (.error .missing)) : IsPart files path ""

/-- The first of some files that cannot be read and is not just missing, and why. -/
inductive FirstFault (files : FileTree) : List String → String → FileTree.PathFault → Prop where
  | here {path : String} {paths : List String} {fault : FileTree.PathFault}
      (h : files.Reading path (.error fault)) (hother : fault ≠ .missing) :
      FirstFault files (path :: paths) path fault
  | later {first text path : String} {paths : List String} {fault : FileTree.PathFault}
      (hfirst : IsPart files first text) (h : FirstFault files paths path fault) :
      FirstFault files (first :: paths) path fault

/-- What comes of a body, a header and a footer. -/
inductive Renders (files : FileTree) : List String → Except Fault String → Prop where
  /-- The body is missing. -/
  | missing {body header footer : String} (h : files.Reading body (.error .missing)) :
      Renders files [body, header, footer] (.ok "")
  /-- The body is not missing, but one of the files cannot be read. -/
  | broken {body header footer path : String} {fault : FileTree.PathFault}
      (hbody : ¬ files.Reading body (.error .missing))
      (h : FirstFault files [body, header, footer] path fault) :
      Renders files [body, header, footer]
        (.error (.provider (path ++ ": " ++ fault.system.text)))
  /-- There is a body, and the layout can be read as far as it is there. -/
  | whole {body header footer text above below document : String}
      (hbody : files.Reading body (.ok text)) (hheader : IsPart files header above)
      (hfooter : IsPart files footer below)
      (hfilled : Title.Filled text (above ++ text ++ below) document) :
      Renders files [body, header, footer] (.ok document)

theorem readOptional_of_text {path text : String} (h : files.Reading path (.ok text)) :
    readOptional files path = .ok (some text) := by
  rw [readOptional, h.readText_eq]

theorem readOptional_of_missing {path : String} (h : files.Reading path (.error .missing)) :
    readOptional files path = .ok none := by
  rw [readOptional, h.readText_eq]

theorem readOptional_of_fault {path : String} {fault : FileTree.PathFault}
    (h : files.Reading path (.error fault)) (hother : fault ≠ .missing) :
    readOptional files path = .error (.provider (path ++ ": " ++ fault.system.text)) := by
  rw [readOptional, h.readText_eq]
  cases fault with
  | missing => exact absurd rfl hother
  | nul | tooLong | notDirectory | directory | notText => rfl

theorem IsPart.readOptional {path text : String} (h : IsPart files path text) :
    ∃ part, readOptional files path = .ok part ∧ part.getD "" = text := by
  cases h with
  | text h => exact ⟨_, readOptional_of_text h, rfl⟩
  | missing h => exact ⟨_, readOptional_of_missing h, rfl⟩

/-- A file is a part of a document, or it cannot be read and is not just missing. -/
theorem isPart_or_fault (files : FileTree) (path : String) :
    (∃ text, IsPart files path text) ∨
      ∃ fault, files.Reading path (.error fault) ∧ fault ≠ .missing := by
  have hreading := files.reading_readText path
  cases hread : files.readText path with
  | ok text => exact Or.inl ⟨text, .text (hread ▸ hreading)⟩
  | error fault =>
    rw [hread] at hreading
    by_cases hmissing : fault = .missing
    · exact Or.inl ⟨"", .missing (hmissing ▸ hreading)⟩
    · exact Or.inr ⟨fault, hreading, hmissing⟩

/-- Some files are all parts of a document, or one is the first that is not. -/
theorem all_isPart_or_firstFault (files : FileTree) (paths : List String) :
    (∀ path ∈ paths, ∃ text, IsPart files path text) ∨
      ∃ path fault, FirstFault files paths path fault := by
  induction paths with
  | nil => exact Or.inl (by simp)
  | cons first paths ih =>
    rcases isPart_or_fault files first with ⟨text, hfirst⟩ | ⟨fault, hfault, hother⟩
    · rcases ih with hall | ⟨path, fault, h⟩
      · exact Or.inl (List.forall_mem_cons.mpr ⟨⟨text, hfirst⟩, hall⟩)
      · exact Or.inr ⟨path, fault, .later hfirst h⟩
    · exact Or.inr ⟨first, fault, .here hfault hother⟩

/-- Whatever the three files are, something comes of them. -/
theorem exists_renders (files : FileTree) (body header footer : String) :
    ∃ result, Renders files [body, header, footer] result := by
  by_cases hmissing : files.Reading body (.error .missing)
  · exact ⟨_, .missing hmissing⟩
  · rcases all_isPart_or_firstFault files [body, header, footer] with hall | ⟨path, fault, h⟩
    · obtain ⟨text, hbody⟩ := hall body (by simp)
      obtain ⟨above, hheader⟩ := hall header (by simp)
      obtain ⟨below, hfooter⟩ := hall footer (by simp)
      cases hbody with
      | missing hbody => exact absurd hbody hmissing
      | text hbody => exact ⟨_, .whole hbody hheader hfooter (filled_assemble above text below)⟩
    · exact ⟨_, .broken hmissing h⟩

/-- The first file that cannot be read is the fault of the document. -/
theorem document_of_firstFault {bodyPath layout path : String} {fault : FileTree.PathFault}
    (hbody : ¬ files.Reading bodyPath (.error .missing))
    (h : FirstFault files (documentPaths bodyPath layout) path fault) :
    document files bodyPath layout = .error (.provider (path ++ ": " ++ fault.system.text)) := by
  unfold documentPaths at h
  rw [document]
  cases h with
  | here hfault hother => rw [readOptional_of_fault hfault hother]
  | later hpart h =>
    cases hpart with
    | missing hmissing => exact absurd hmissing hbody
    | text hread =>
      rw [readOptional_of_text hread]
      dsimp only
      cases h with
      | here hfault hother => rw [readOptional_of_fault hfault hother]
      | later hheader h =>
        obtain ⟨above, habove, -⟩ := hheader.readOptional
        rw [habove]
        dsimp only
        cases h with
        | here hfault hother => rw [readOptional_of_fault hfault hother]
        | later _ h => cases h

theorem Renders.document_eq {bodyPath layout : String} {result : Except Fault String}
    (h : Renders files (documentPaths bodyPath layout) result) :
    document files bodyPath layout = result := by
  have hpaths : documentPaths bodyPath layout
    = [bodyPath, FileTree.join layout "header.html", FileTree.join layout "footer.html"] := rfl
  rw [hpaths] at h
  cases h with
  | missing h => rw [document, readOptional_of_missing h]
  | broken hbody h => exact document_of_firstFault hbody h
  | whole hbody hheader hfooter hfilled =>
    obtain ⟨above, habove, rfl⟩ := hheader.readOptional
    obtain ⟨below, hbelow, rfl⟩ := hfooter.readOptional
    rw [document, readOptional_of_text hbody]
    dsimp only
    rw [habove]
    dsimp only
    rw [hbelow]
    dsimp only
    rw [assemble_of_filled hfilled]

theorem document_eq_iff {bodyPath layout : String} {result : Except Fault String} :
    document files bodyPath layout = result ↔
      Renders files (documentPaths bodyPath layout) result := by
  refine ⟨fun h => ?_, Renders.document_eq⟩
  obtain ⟨other, hother⟩ := exists_renders files bodyPath (FileTree.join layout "header.html")
    (FileTree.join layout "footer.html")
  rw [← h, Renders.document_eq hother]
  exact hother

/-! ## Empty documents -/

/-- A title that is filled in is no empty text. -/
theorem eq_empty_of_filled {body document : String} (h : Title.Filled body document "") :
    document = "" := by
  generalize hresult : "" = result at h
  cases h with
  | untitled htitle => rfl
  | no_placeholder h => rfl
  | filled htitle h =>
    rw [← String.toList_inj] at hresult
    simp at hresult

/-- Nothing comes of a body and its layout if and only if the body is missing or all of the three
are empty or missing. -/
theorem renders_empty_iff {body header footer : String} :
    Renders files [body, header, footer] (.ok "") ↔
      files.Reading body (.error .missing) ∨
        ∀ path ∈ [body, header, footer], IsPart files path "" := by
  constructor
  · generalize hresult : Except.ok "" = result
    intro h
    cases h with
    | missing h => exact Or.inl h
    | broken hbody h => cases hresult
    | whole hbody hheader hfooter hfilled =>
      rw [Except.ok.injEq] at hresult
      have hempty := eq_empty_of_filled (hresult ▸ hfilled)
      rw [String.append_eq_empty_iff, String.append_eq_empty_iff] at hempty
      obtain ⟨⟨rfl, rfl⟩, rfl⟩ := hempty
      exact Or.inr (by simpa using ⟨.text hbody, hheader, hfooter⟩)
  · rintro (h | h)
    · exact .missing h
    · have hbody := h body (by simp)
      generalize htext : "" = text at hbody
      cases hbody with
      | missing h => exact .missing h
      | text hbody =>
        subst htext
        exact .whole hbody (h header (by simp)) (h footer (by simp)) (.untitled (by decide))

/-! ## Pages and posts -/

/-- The files of a query: the body, the header and the footer.  A page has some if it has a plain
name and its tenant has one. -/
inductive HasFiles (lib : Library) : Query → List String → Prop where
  | page (host : String) {tenant page : String} (htenant : isPlainName tenant = true)
      (hpage : isPlainName page = true) :
      HasFiles lib (.page host tenant page) (lib.pageFiles tenant page)
  | post (id : Nat) : HasFiles lib (.post id) (lib.postFiles id)

theorem HasFiles.find_eq_iff {lib : Library} {query : Query} {paths : List String}
    (h : lib.HasFiles query paths) {result : Except Fault String} :
    lib.find files query = result ↔ Renders files paths result := by
  cases h with
  | page host htenant hpage =>
    rw [← lib.paths_page htenant host, find, Library.page, hpage, htenant]
    exact document_eq_iff
  | post id =>
    rw [← lib.paths_post id]
    exact document_eq_iff

/-- A library gives to a query what comes of its body, header and footer, and nothing else.  It is
the empty document if and only if the body is missing or all of the three are empty or missing. -/
theorem find_renders (lib : Library) (files : FileTree) {query : Query}
    {body header footer : String} (h : lib.HasFiles query [body, header, footer]) :
    (∀ result, lib.find files query = result ↔ Renders files [body, header, footer] result) ∧
      (lib.find files query = .ok "" ↔
        files.Reading body (.error .missing) ∨
          ∀ path ∈ [body, header, footer], IsPart files path "") :=
  ⟨fun _ => h.find_eq_iff, h.find_eq_iff.trans renders_empty_iff⟩

/-- A page with a placeholder in its header, and another one in its body that stays. -/
theorem find_renders_first_placeholder :
    let lib : Library := ⟨"/content"⟩
    let header := (["content", "a", "layout", "header.html"],
      FileTree.Node.file (Bytes.ofText Title.placeholder))
    let page := (["content", "a", "pages", "index.html"],
      FileTree.Node.file (Bytes.ofText ("<h1>T</h1>" ++ Title.placeholder)))
    let broken := (["content", "layout", "footer.html"], FileTree.Node.file [255])
    let files := FileTree.ofEntries [header, page, broken] []
    lib.HasFiles (.page "x" "a" "index") (lib.pageFiles "a" "index") ∧
      Renders files (lib.pageFiles "a" "index")
        (.ok ("<title>T</title><h1>T</h1>" ++ Title.placeholder)) ∧
      lib.find files (.post 7) = .ok "" := by
  intro lib header page broken files
  have hpage : lib.HasFiles (.page "x" "a" "index") (lib.pageFiles "a" "index") :=
    .page "x" (by decide) (by decide)
  obtain ⟨hfind, -⟩ := find_renders lib files hpage
  obtain ⟨-, hempty⟩ := find_renders lib files (.post 7)
  refine ⟨hpage, (hfind _).mp ?_, hempty.mpr (Or.inl ?_)⟩
  · decide +kernel
  · exact FileTree.readText_eq_iff.mp (by decide +kernel)

end Library

end ContentServer
