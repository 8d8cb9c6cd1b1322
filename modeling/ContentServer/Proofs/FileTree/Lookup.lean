import ContentServer.FileTree

/-!
# What the look-up of a path comes to

A path is looked up name by name from the left.  From the place that has been reached, the next name
either leads on (`Enters`) or is barred for one reason (`Bars`).

* Only a directory can be entered.  What stands behind a file is barred, and be it the empty name
  behind the slash at the end of a path.
* The empty name and the point stay, and two points lead to the parent.
* Any other name leads to what has it.  It is barred if it is longer than 255 bytes, and it is
  missing if nothing has it.

A look-up arrives at a place if there is a way through all names of the path (`Arrives`).  It fails
for the reason for which the first of its names is barred, unless the path as a whole is refused
before that (`Fails`).  `find_eq_ok_iff` and `find_eq_error_iff` say that the function which runs
arrives and fails in the same way, so a look-up does one of the two and never both.

Reading a text is a look-up that has to arrive at a file whose bytes are a text (`Reading`).
-/

namespace ContentServer.FileTree

variable {t : FileTree} {p q : Place} {name : String} {names : List String} {fault : PathFault}
variable {path : String}

/-! ## One name -/

/-- A name that leads from a place to another one. -/
inductive Enters (t : FileTree) : Place → String → Place → Prop where
  /-- The empty name and the point stay where they are. -/
  | stay {names : List String} {name : String} (hname : name = "" ∨ name = ".") :
      Enters t ⟨names, .directory⟩ name ⟨names, .directory⟩
  /-- Two points lead to the parent.  The root directory is its own parent. -/
  | leave {names : List String} :
      Enters t ⟨names, .directory⟩ ".." ⟨names.dropLast, .directory⟩
  /-- Any other name leads to what has it. -/
  | reach {names : List String} {name : String} {node : Node} (hname : name ∉ ["", ".", ".."])
      (hshort : name.utf8ByteSize ≤ 255) (hnode : t.node? (names ++ [name]) = some node) :
      Enters t ⟨names, .directory⟩ name ⟨names ++ [name], node⟩

/-- A name that leads nowhere from a place, and why. -/
inductive Bars (t : FileTree) : Place → String → PathFault → Prop where
  /-- Nothing can be entered from a file. -/
  | file {names : List String} {content : Bytes} {name : String} :
      Bars t ⟨names, .file content⟩ name .notDirectory
  /-- The name is too long. -/
  | long {names : List String} {name : String} (hlong : 255 < name.utf8ByteSize) :
      Bars t ⟨names, .directory⟩ name .tooLong
  /-- Nothing has the name. -/
  | missing {names : List String} {name : String} (hname : name ∉ ["", ".", ".."])
      (hshort : name.utf8ByteSize ≤ 255) (hnode : t.node? (names ++ [name]) = none) :
      Bars t ⟨names, .directory⟩ name .missing

/-- A name with a meaning of its own is short. -/
theorem not_mem_of_long (h : 255 < name.utf8ByteSize) : name ∉ ["", ".", ".."] := by
  have hshort : ∀ n ∈ ["", ".", ".."], n.utf8ByteSize ≤ 255 := by decide
  exact fun hname => absurd (hshort name hname) (Nat.not_le_of_gt h)

/-- A name without a meaning of its own is looked up in the tree. -/
theorem enter_of_plain (hname : name ∉ ["", ".", ".."]) :
    t.enter ⟨names, .directory⟩ name =
      if 255 < name.utf8ByteSize then .error .tooLong
      else match t.node? (names ++ [name]) with
        | none => .error .missing
        | some node => .ok ⟨names ++ [name], node⟩ := by
  simp only [List.mem_cons, List.not_mem_nil, or_false, not_or] at hname
  obtain ⟨hempty, hpoint, hup⟩ := hname
  rw [enter]
  simp only [hempty, hpoint, hup, decide_false, Bool.or_self, Bool.false_eq_true, if_false]
  rfl

theorem Enters.enter (h : t.Enters p name q) : t.enter p name = .ok q := by
  cases h with
  | stay hname => rcases hname with rfl | rfl <;> rfl
  | leave => rfl
  | reach hname hshort hnode =>
    rw [enter_of_plain hname, if_neg (Nat.not_lt_of_le hshort), hnode]

theorem Bars.enter (h : t.Bars p name fault) : t.enter p name = .error fault := by
  cases h with
  | file => rfl
  | long hlong => rw [enter_of_plain (not_mem_of_long hlong), if_pos hlong]
  | missing hname hshort hnode =>
    rw [enter_of_plain hname, if_neg (Nat.not_lt_of_le hshort), hnode]

/-- From every place, every name leads on or is barred. -/
theorem enters_or_bars (t : FileTree) (p : Place) (name : String) :
    (∃ q, t.Enters p name q) ∨ ∃ fault, t.Bars p name fault := by
  obtain ⟨names, node⟩ := p
  cases node with
  | file content => exact Or.inr ⟨_, .file⟩
  | directory =>
    by_cases hname : name ∈ ["", ".", ".."]
    · simp only [List.mem_cons, List.not_mem_nil, or_false] at hname
      rcases hname with rfl | rfl | rfl
      · exact Or.inl ⟨_, .stay (Or.inl rfl)⟩
      · exact Or.inl ⟨_, .stay (Or.inr rfl)⟩
      · exact Or.inl ⟨_, .leave⟩
    · by_cases hshort : name.utf8ByteSize ≤ 255
      · cases hnode : t.node? (names ++ [name]) with
        | none => exact Or.inr ⟨_, .missing hname hshort hnode⟩
        | some node => exact Or.inl ⟨_, .reach hname hshort hnode⟩
      · exact Or.inr ⟨_, .long (Nat.lt_of_not_le hshort)⟩

theorem enter_eq_ok_iff : t.enter p name = .ok q ↔ t.Enters p name q := by
  refine ⟨fun h => ?_, Enters.enter⟩
  rcases t.enters_or_bars p name with ⟨r, hr⟩ | ⟨fault, hfault⟩
  · rw [hr.enter, Except.ok.injEq] at h
    exact h ▸ hr
  · rw [hfault.enter] at h
    cases h

theorem enter_eq_error_iff : t.enter p name = .error fault ↔ t.Bars p name fault := by
  refine ⟨fun h => ?_, Bars.enter⟩
  rcases t.enters_or_bars p name with ⟨r, hr⟩ | ⟨other, hother⟩
  · rw [hr.enter] at h
    cases h
  · rw [hother.enter, Except.error.injEq] at h
    exact h ▸ hother

/-! ## Many names -/

/-- A way from a place through some names, one after the other, to another place. -/
inductive Way (t : FileTree) : Place → List String → Place → Prop where
  | nil (p : Place) : Way t p [] p
  | cons {p q r : Place} {name : String} {names : List String} (h : t.Enters p name q)
      (hrest : Way t q names r) : Way t p (name :: names) r

theorem walk_eq_ok_iff : t.walk p names = .ok q ↔ t.Way p names q := by
  induction names generalizing p with
  | nil =>
    rw [walk, Except.ok.injEq]
    constructor
    · rintro rfl
      exact .nil p
    · rintro ⟨⟩
      rfl
  | cons name names ih =>
    rw [walk]
    constructor
    · intro h
      cases hfirst : t.enter p name with
      | error fault =>
        rw [hfirst] at h
        cases h
      | ok next =>
        rw [hfirst] at h
        exact .cons (enter_eq_ok_iff.mp hfirst) (ih.mp h)
    · rintro (_ | ⟨hfirst, hrest⟩)
      rw [hfirst.enter]
      exact ih.mpr hrest

/-- A walk fails where the first name is barred. -/
theorem walk_eq_error_iff :
    t.walk p names = .error fault ↔
      ∃ (before : List String) (name : String) (after : List String) (place : Place),
        names = before ++ name :: after ∧ t.Way p before place ∧ t.Bars place name fault := by
  induction names generalizing p with
  | nil =>
    constructor
    · intro h
      cases h
    · rintro ⟨before, name, after, place, hnames, -, -⟩
      have hne : before ++ name :: after ≠ [] :=
        List.append_ne_nil_of_right_ne_nil before (List.cons_ne_nil name after)
      exact absurd hnames.symm hne
  | cons first names ih =>
    rw [walk]
    -- What is barred further on is barred behind the first name, or it is the first name itself.
    rcases t.enters_or_bars p first with ⟨next, hnext⟩ | ⟨other, hother⟩
    · rw [hnext.enter]
      dsimp only
      rw [ih]
      constructor
      · rintro ⟨before, name, after, place, rfl, hway, hbars⟩
        exact ⟨first :: before, name, after, place, rfl, .cons hnext hway, hbars⟩
      · rintro ⟨before, name, after, place, hnames, hway, hbars⟩
        cases hway with
        | nil =>
          injection hnames with hname
          rw [← hname, ← enter_eq_error_iff, hnext.enter] at hbars
          cases hbars
        | cons hfirst hrest =>
          injection hnames with hname hnames
          rw [← hname, ← enter_eq_ok_iff, hnext.enter, Except.ok.injEq] at hfirst
          exact ⟨_, name, after, place, hnames, hfirst ▸ hrest, hbars⟩
    · rw [hother.enter]
      dsimp only
      rw [Except.error.injEq]
      constructor
      · rintro rfl
        exact ⟨[], first, names, p, rfl, .nil p, hother⟩
      · rintro ⟨before, name, after, place, hnames, hway, hbars⟩
        cases hway with
        | nil =>
          injection hnames with hname
          rw [← hname, ← enter_eq_error_iff, hother.enter, Except.error.injEq] at hbars
          exact hbars
        | cons hfirst hrest =>
          injection hnames with hname
          rw [← hname, ← enter_eq_ok_iff, hother.enter] at hfirst
          cases hfirst

/-! ## A path -/

/-- A path that is looked up at all. -/
structure Proper (path : String) : Prop where
  no_nul : '\x00' ∉ path.toList
  short : path.utf8ByteSize < 4096
  ne_empty : path ≠ ""

/-- The look-up of a path arrives at a place. -/
structure Arrives (t : FileTree) (path : String) (place : Place) : Prop extends Proper path where
  way : t.Way (t.start path) (components path) place

/-- The first thing that goes wrong when a path is looked up. -/
inductive Fails (t : FileTree) (path : String) : PathFault → Prop where
  /-- The path holds a NUL. -/
  | nul (h : '\x00' ∈ path.toList) : Fails t path .nul
  /-- The path is too long. -/
  | long (hnul : '\x00' ∉ path.toList) (hlong : 4096 ≤ path.utf8ByteSize) : Fails t path .tooLong
  /-- There is no path. -/
  | empty (h : path = "") : Fails t path .missing
  /-- There is a way through some names, and the next name is barred. -/
  | barred (hproper : Proper path) {before after : List String} {name : String} {place : Place}
      {fault : PathFault} (hnames : components path = before ++ name :: after)
      (hway : t.Way (t.start path) before place) (hbars : t.Bars place name fault) :
      Fails t path fault

theorem find_eq (t : FileTree) (path : String) :
    t.find path =
      if '\x00' ∈ path.toList then .error .nul
      else if 4096 ≤ path.utf8ByteSize then .error .tooLong
      else if path = "" then .error .missing
      else t.walk (t.start path) (components path) := by
  simp only [find, List.contains_iff_mem]
  rfl

theorem find_of_proper (h : Proper path) :
    t.find path = t.walk (t.start path) (components path) := by
  rw [find_eq, if_neg h.no_nul, if_neg (Nat.not_le_of_lt h.short), if_neg h.ne_empty]

/-- A path that is not looked up is refused for one of three reasons. -/
theorem fails_of_not_proper (h : ¬ Proper path) (t : FileTree) :
    ∃ fault, t.find path = .error fault ∧ t.Fails path fault := by
  rw [find_eq]
  by_cases hnul : '\x00' ∈ path.toList
  · rw [if_pos hnul]
    exact ⟨_, rfl, .nul hnul⟩
  · rw [if_neg hnul]
    by_cases hlong : 4096 ≤ path.utf8ByteSize
    · rw [if_pos hlong]
      exact ⟨_, rfl, .long hnul hlong⟩
    · rw [if_neg hlong]
      by_cases hempty : path = ""
      · rw [if_pos hempty]
        exact ⟨_, rfl, .empty hempty⟩
      · exact absurd ⟨hnul, Nat.lt_of_not_le hlong, hempty⟩ h

theorem Arrives.find (h : t.Arrives path p) : t.find path = .ok p := by
  rw [find_of_proper h.toProper]
  exact walk_eq_ok_iff.mpr h.way

theorem Fails.find (h : t.Fails path fault) : t.find path = .error fault := by
  cases h with
  | nul h => rw [find_eq, if_pos h]
  | long hnul hlong => rw [find_eq, if_neg hnul, if_pos hlong]
  | empty h =>
    rw [h]
    rfl
  | barred hproper hnames hway hbars =>
    rw [find_of_proper hproper]
    exact walk_eq_error_iff.mpr ⟨_, _, _, _, hnames, hway, hbars⟩

theorem find_eq_ok_iff : t.find path = .ok p ↔ t.Arrives path p := by
  refine ⟨fun h => ?_, Arrives.find⟩
  by_cases hproper : Proper path
  · rw [find_of_proper hproper] at h
    exact ⟨hproper, walk_eq_ok_iff.mp h⟩
  · obtain ⟨fault, hfind, -⟩ := fails_of_not_proper hproper t
    rw [hfind] at h
    cases h

theorem find_eq_error_iff : t.find path = .error fault ↔ t.Fails path fault := by
  refine ⟨fun h => ?_, Fails.find⟩
  by_cases hproper : Proper path
  · rw [find_of_proper hproper] at h
    obtain ⟨before, name, after, place, hnames, hway, hbars⟩ := walk_eq_error_iff.mp h
    exact .barred hproper hnames hway hbars
  · obtain ⟨other, hfind, hfails⟩ := fails_of_not_proper hproper t
    rw [hfind, Except.error.injEq] at h
    exact h ▸ hfails

/-- What a look-up can fail for. -/
theorem Fails.mem (h : t.Fails path fault) :
    fault ∈ [PathFault.nul, .tooLong, .missing, .notDirectory] := by
  cases h with
  | nul | long | empty => decide
  | barred hproper hnames hway hbars => cases hbars <;> decide

theorem look_eq_ok_iff {node : Node} :
    t.look path = .ok node ↔ ∃ names, t.Arrives path ⟨names, node⟩ := by
  rw [look]
  constructor
  · intro h
    cases hfind : t.find path with
    | error fault =>
      rw [hfind] at h
      cases h
    | ok place =>
      rw [hfind] at h
      cases h
      exact ⟨place.names, find_eq_ok_iff.mp hfind⟩
  · rintro ⟨names, harrives⟩
    rw [harrives.find]
    rfl

theorem look_eq_error_iff : t.look path = .error fault ↔ t.Fails path fault := by
  rw [← find_eq_error_iff, look]
  cases t.find path with
  | error other => rw [Except.map, Except.error.injEq, Except.error.injEq]
  | ok place => exact iff_of_false nofun nofun

/-- A look-up arrives at a file, or there is no file, or the look-up fails for another reason. -/
theorem file_or_missing_or_fails (t : FileTree) (path : String) :
    (∃ names content, t.Arrives path ⟨names, .file content⟩) ∨
    ((∃ names, t.Arrives path ⟨names, .directory⟩) ∨ t.Fails path .missing) ∨
    ∃ fault ∈ [PathFault.nul, .tooLong, .notDirectory], t.Fails path fault := by
  cases hfind : t.find path with
  | ok place =>
    have harrives := find_eq_ok_iff.mp hfind
    obtain ⟨names, content | _⟩ := place
    · exact Or.inl ⟨names, content, harrives⟩
    · exact Or.inr (Or.inl (Or.inl ⟨names, harrives⟩))
  | error fault =>
    have hfails := find_eq_error_iff.mp hfind
    by_cases hmissing : fault = .missing
    · exact Or.inr (Or.inl (Or.inr (hmissing ▸ hfails)))
    · have hmem := hfails.mem
      simp only [List.mem_cons, hmissing, false_or] at hmem
      exact Or.inr (Or.inr ⟨fault, by simpa using hmem, hfails⟩)

/-! ## Texts -/

/-- What reading a path as a text comes to. -/
inductive Reading (t : FileTree) (path : String) : Except PathFault String → Prop where
  /-- A file whose bytes are a text. -/
  | text {names : List String} {text : String}
      (h : t.Arrives path ⟨names, .file (Bytes.ofText text)⟩) : Reading t path (.ok text)
  /-- A file whose bytes are no text. -/
  | notText {names : List String} {content : Bytes} (h : t.Arrives path ⟨names, .file content⟩)
      (hnot : ∀ text, Bytes.ofText text ≠ content) : Reading t path (.error .notText)
  /-- A directory. -/
  | directory {names : List String} (h : t.Arrives path ⟨names, .directory⟩) :
      Reading t path (.error .directory)
  /-- The look-up fails. -/
  | fails {fault : PathFault} (h : t.Fails path fault) : Reading t path (.error fault)

theorem reading_readText (t : FileTree) (path : String) : t.Reading path (t.readText path) := by
  rw [readText]
  cases hlook : t.look path with
  | error fault => exact .fails (look_eq_error_iff.mp hlook)
  | ok node =>
    obtain ⟨names, h⟩ := look_eq_ok_iff.mp hlook
    cases node with
    | directory => exact .directory h
    | file content =>
      dsimp only
      cases htext : Bytes.text? content with
      | none =>
        refine .notText h fun text hbytes => ?_
        rw [← hbytes, Bytes.text?_ofText] at htext
        cases htext
      | some text =>
        rw [Bytes.text?_eq_some_iff.mp htext] at h
        exact .text h

theorem Reading.readText_eq {result : Except PathFault String} (h : t.Reading path result) :
    t.readText path = result := by
  cases h with
  | text h =>
    rw [readText, look_eq_ok_iff.mpr ⟨_, h⟩]
    dsimp only
    rw [Bytes.text?_ofText]
  | @notText names content h hnot =>
    have hnone : Bytes.text? content = none := by
      rw [Option.eq_none_iff_forall_ne_some]
      exact fun text htext => hnot text (Bytes.text?_eq_some_iff.mp htext).symm
    rw [readText, look_eq_ok_iff.mpr ⟨_, h⟩]
    dsimp only
    rw [hnone]
  | directory h => rw [readText, look_eq_ok_iff.mpr ⟨_, h⟩]
  | fails h => rw [readText, look_eq_error_iff.mpr h]

theorem readText_eq_iff {result : Except PathFault String} :
    t.readText path = result ↔ t.Reading path result :=
  ⟨fun h => h ▸ t.reading_readText path, Reading.readText_eq⟩

end ContentServer.FileTree
