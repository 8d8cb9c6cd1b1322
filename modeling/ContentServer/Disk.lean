import ContentServer.FileTree

/-!
# The disk

The part of the file tree that stands on the disk, as far as some paths can lead to it.  A look-up
of these paths needs nothing else of the tree (`FileTree.find_congr`).

What cannot be read for another reason than that it is a directory counts as missing.
-/

namespace ContentServer.Disk

/-- The code with which the system refuses to read a directory. -/
def directoryCode : UInt32 := 21

/-- What stands at a place on the disk. -/
def look (names : List String) : IO (Option FileTree.Node) := do
  try
    let content ← IO.FS.readBinFile ("/" ++ String.intercalate "/" names)
    return some (.file content.data.toList)
  catch
    | .inappropriateType _ code _ => return if code = directoryCode then some .directory else none
    | _ => return none

/-- The names that lead to the working directory of the program. -/
def workingDirectory : IO (List String) :=
  return (FileTree.components (toString (← IO.currentDir))).filter (· != "")

/-- The part of the tree that the given paths can lead to. -/
def observe (paths : List String) : IO FileTree := do
  let origin ← workingDirectory
  let places := (paths.flatMap (FileTree.places origin)).eraseDups
  let nodes ← places.mapM fun names => do return (← look names).map (names, ·)
  return FileTree.ofEntries (nodes.filterMap id) origin

end ContentServer.Disk
