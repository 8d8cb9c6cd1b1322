import ContentServer.Bytes
import ContentServer.Fault.System
import ContentServer.Text.Search

/-!
# Files and paths

Documents, layouts and settings are files.  A `FileTree` says what stands where below the root
directory, and which directory paths without a leading slash start from.

A path is looked up from left to right, and the first thing that goes wrong counts.

* A path that holds a NUL, that has `maxPath` bytes or more, or that is empty is looked up nowhere.
* The names between the slashes are entered one after the other.  Only a directory can be entered,
  so a slash after a file is a failure, also at the end of the path.
* An empty name and `.` stay where they are, and `..` leads to the parent.
* A name of more than `maxName` bytes stands nowhere, and neither does a name that the tree does
  not have.

There are no links, so `..` undoes the entering of a name.
-/

namespace ContentServer

namespace FileTree

/-- What can stand at a place. -/
inductive Node where
  | file (content : Bytes)
  | directory
deriving DecidableEq, Repr

/-- Why a path leads to nothing that can be used. -/
inductive PathFault where
  /-- The path holds a NUL. -/
  | nul
  /-- The path or one of its names is too long. -/
  | tooLong
  /-- Nothing has that name. -/
  | missing
  /-- A file is used as a directory. -/
  | notDirectory
  /-- A directory is read as a file. -/
  | directory
  /-- The content of a file is no text. -/
  | notText
deriving DecidableEq, Repr

/-- The failure of the system that stands for a fault. -/
def PathFault.system : PathFault → SystemError
  | .nul => ⟨.invalidInput, "file name contained an unexpected NUL byte"⟩
  | .tooLong => .ofCode 36
  | .missing => .ofCode 2
  | .notDirectory => .ofCode 20
  | .directory => .ofCode 21
  | .notText => ⟨.invalidData, "stream did not contain valid UTF-8"⟩

/-- The number of bytes from which on a path is too long. -/
def maxPath : Nat := 4096

/-- The most bytes in a name. -/
def maxName : Nat := 255

end FileTree

/-- What stands below the root directory. -/
structure FileTree where
  /-- What stands at the place that some names lead to from the root directory. -/
  node? : List String → Option FileTree.Node
  /-- The names that lead to the working directory. -/
  workingDirectory : List String := []

namespace FileTree

/-- A place that a path has led to. -/
structure Place where
  /-- The names that lead there from the root directory. -/
  names : List String
  /-- What stands there. -/
  node : Node
deriving DecidableEq, Repr

/-- The place that a name leads to. -/
def enter (t : FileTree) (p : Place) (name : String) : Except PathFault Place :=
  match p.node with
  | .file _ => .error .notDirectory
  | .directory =>
    if name = "" || name = "." then .ok p
    else if name = ".." then .ok ⟨p.names.dropLast, .directory⟩
    else if name.utf8ByteSize > maxName then .error .tooLong
    else match t.node? (p.names ++ [name]) with
      | none => .error .missing
      | some node => .ok ⟨p.names ++ [name], node⟩

/-- The place that some names lead to, one after the other. -/
def walk (t : FileTree) (p : Place) : List String → Except PathFault Place
  | [] => .ok p
  | name :: names =>
    match t.enter p name with
    | .error e => .error e
    | .ok p => t.walk p names

/-- The names between the slashes of a path. -/
def components (path : String) : List String := (List.splitOn '/' path.toList).map String.ofList

/-- Where the look-up of a path starts. -/
def start (t : FileTree) (path : String) : Place :=
  ⟨if path.toList.head? = some '/' then [] else t.workingDirectory, .directory⟩

/-- The place that a path leads to. -/
def find (t : FileTree) (path : String) : Except PathFault Place :=
  if path.toList.contains '\x00' then .error .nul
  else if path.utf8ByteSize ≥ maxPath then .error .tooLong
  else if path = "" then .error .missing
  else t.walk (t.start path) (components path)

/-- Where a name leads from a place. -/
def turn (names : List String) (name : String) : List String :=
  if name = "" || name = "." then names
  else if name = ".." then names.dropLast
  else names ++ [name]

/-- The places that some names lead to from another place, one after the other. -/
def placesFrom (names : List String) : List String → List (List String)
  | [] => []
  | name :: rest => turn names name :: placesFrom (turn names name) rest

/-- The places that the look-up of a path from a working directory can depend on. -/
def places (workingDirectory : List String) (path : String) : List (List String) :=
  placesFrom (if path.toList.head? = some '/' then [] else workingDirectory) (components path)

/-- What stands at a path. -/
def look (t : FileTree) (path : String) : Except PathFault Node := (t.find path).map Place.node

/-- The text of the file at a path. -/
def readText (t : FileTree) (path : String) : Except PathFault String :=
  match t.look path with
  | .error e => .error e
  | .ok .directory => .error .directory
  | .ok (.file content) =>
    match Bytes.text? content with
    | none => .error .notText
    | some text => .ok text

/-- The path of something in a directory. -/
def join (directory name : String) : String :=
  if directory = "" || directory.toList.getLast? = some '/' then directory ++ name
  else directory ++ "/" ++ name

/-- The tree with the given nodes and the directories that lead to them. -/
def ofEntries (entries : List (List String × Node)) (workingDirectory : List String) :
    FileTree where
  node? names :=
    match entries.lookup names with
    | some node => some node
    | none => if entries.any fun e => names.isPrefixOf e.1 then some .directory else none
  workingDirectory := workingDirectory

/-- A tree with the file `/a/f` and the empty directory `/a/d`. -/
def sample : FileTree := ofEntries [(["a", "f"], .file [120]), (["a", "d"], .directory)] ["a"]

example : sample.look "d/../f" = .ok (.file [120]) := by rfl
example : sample.look "/a/g/../f" = .error .missing := by rfl

/-! ## What a look-up depends on -/

/-- A name that can be entered leads where it should. -/
theorem names_of_enter {t : FileTree} {p q : Place} {name : String}
    (h : t.enter p name = .ok q) : q.names = turn p.names name := by
  unfold enter at h
  unfold turn
  split at h
  · cases h
  · split
    · next hs => rw [if_pos hs] at h; cases h; rfl
    · next hs =>
      rw [if_neg hs] at h
      split
      · next hu => rw [if_pos hu] at h; cases h; rfl
      · next hu =>
        rw [if_neg hu] at h
        split at h
        · cases h
        · split at h
          · cases h
          · cases h; rfl

/-- Entering a name only depends on what stands where it leads. -/
theorem enter_congr {t u : FileTree} {p : Place} {name : String}
    (h : t.node? (turn p.names name) = u.node? (turn p.names name)) :
    t.enter p name = u.enter p name := by
  unfold turn at h
  unfold enter
  split
  · rfl
  · split
    · rfl
    · next hs =>
      split
      · rfl
      · next hu =>
        rw [if_neg hs, if_neg hu] at h
        rw [h]

theorem walk_congr {t u : FileTree} (p : Place) (names : List String)
    (h : ∀ q ∈ placesFrom p.names names, t.node? q = u.node? q) :
    t.walk p names = u.walk p names := by
  induction names generalizing p with
  | nil => rfl
  | cons name names ih =>
    rw [walk, walk, enter_congr (h _ (List.mem_cons_self ..))]
    cases hp : u.enter p name with
    | error e => rfl
    | ok q =>
      refine ih q fun r hr => h r (List.mem_cons_of_mem _ ?_)
      rwa [← names_of_enter hp]

/-- Two trees that agree on the places of a path have the same at its end. -/
theorem find_congr {t u : FileTree} (path : String)
    (hd : t.workingDirectory = u.workingDirectory)
    (h : ∀ q ∈ places t.workingDirectory path, t.node? q = u.node? q) :
    t.find path = u.find path := by
  unfold find
  rw [walk_congr (t.start path) (components path) h]
  simp only [start, hd]

end FileTree

end ContentServer
