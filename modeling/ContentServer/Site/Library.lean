import ContentServer.Fault
import ContentServer.FileTree
import ContentServer.Site.Title

/-!
# The library of documents

Pages and posts are files below one directory.

* `<tenant>/pages/<page>.html` is a page of a tenant, and `<tenant>/layout` holds the
  `header.html` and `footer.html` that go around each of its pages.
* `posts/<id>.html` is a post, and `layout` holds what goes around posts.

A document is its header, its body and its footer, one after the other, with the title of the body
in place of the first placeholder.  A document without a body is empty, and so is a page whose
name or tenant is no plain name.  A layout file that is missing is left out.  Any other failure to
read one of the three is a fault of the library, which names the file.
-/

namespace ContentServer

/-- A directory with pages and posts. -/
structure Library where
  /-- The path of the directory. -/
  root : String
deriving DecidableEq, Repr

namespace Library

/-- Whether a name consists of ASCII letters, digits, `_` and `-` and is not empty. -/
def isPlainName (name : String) : Bool :=
  !name.toList.isEmpty && name.toList.all fun c => c.isAlphanum || c == '_' || c == '-'

/-- The text of a file, unless the file is missing. -/
def readOptional (files : FileTree) (path : String) : Except Fault (Option String) :=
  match files.readText path with
  | .ok text => .ok (some text)
  | .error .missing => .ok none
  | .error e => .error (.provider (path ++ ": " ++ e.system.text))

/-- A document made of its three parts. -/
def assemble (header body footer : String) : String :=
  let document := header ++ body ++ footer
  match Title.ofDocument? body with
  | none => document
  | some title => Title.insert title document

/-- The document with the body at a path and the layout in a directory. -/
def document (files : FileTree) (bodyPath layout : String) : Except Fault String :=
  match readOptional files bodyPath with
  | .error e => .error e
  | .ok none => .ok ""
  | .ok (some body) =>
    match readOptional files (FileTree.join layout "header.html") with
    | .error e => .error e
    | .ok header =>
      match readOptional files (FileTree.join layout "footer.html") with
      | .error e => .error e
      | .ok footer => .ok (assemble (header.getD "") body (footer.getD ""))

/-- The directory of a tenant. -/
def tenantPath (lib : Library) (tenant : String) : String := FileTree.join lib.root tenant

/-- The path of the body of a page. -/
def pagePath (lib : Library) (tenant page : String) : String :=
  FileTree.join (FileTree.join (lib.tenantPath tenant) "pages") (page ++ ".html")

/-- The directory of a tenant's layout. -/
def pageLayout (lib : Library) (tenant : String) : String :=
  FileTree.join (lib.tenantPath tenant) "layout"

/-- The path of the body of a post. -/
def postPath (lib : Library) (id : Nat) : String :=
  FileTree.join (FileTree.join lib.root "posts") (toString id ++ ".html")

/-- The directory of the layout of posts. -/
def postLayout (lib : Library) : String := FileTree.join lib.root "layout"

/-- A page of a tenant, which is empty if there is none. -/
def page (lib : Library) (files : FileTree) (tenant page : String) : Except Fault String :=
  if isPlainName page && isPlainName tenant then
    document files (lib.pagePath tenant page) (lib.pageLayout tenant)
  else .ok ""

/-- A post, which is empty if there is none. -/
def post (lib : Library) (files : FileTree) (id : Nat) : Except Fault String :=
  document files (lib.postPath id) lib.postLayout

end Library

end ContentServer
