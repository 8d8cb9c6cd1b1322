import ContentServer.Text.Blank

/-!
# Media types of files

A file is sent with the media type that the extension of its name stands for, whatever its case.
The extension is what follows the last point in the last segment of the path.  Names without a
point, and extensions that the table does not have, get the fallback type.
-/

namespace ContentServer.MediaType

/-- The type of rendered documents and of error texts. -/
def html : String := "text/html"

/-- The type of files whose extension is not known. -/
def fallback : String := "application/text"

/-- Media types by extension, in lower case and without the point. -/
def table : List (String × String) :=
  [("htm", html), ("html", html), ("php", html),
   ("css", "text/css"), ("txt", "text/plain"),
   ("js", "application/javascript"), ("json", "application/json"), ("xml", "application/xml"),
   ("swf", "application/x-shockwave-flash"), ("flv", "video/x-flv"),
   ("png", "image/png"), ("jpe", "image/jpeg"), ("jpeg", "image/jpeg"), ("jpg", "image/jpeg"),
   ("gif", "image/gif"), ("bmp", "image/bmp"), ("ico", "image/vnd.microsoft.icon"),
   ("tiff", "image/tiff"), ("tif", "image/tiff"),
   ("svg", "image/svg+xml"), ("svgz", "image/svg+xml")]

/-- What follows the last `c`, or all of the text where there is none. -/
def afterLast (c : Char) (cs : List Char) : List Char :=
  (cs.reverse.takeWhile (· != c)).reverse

/-- The extension of the last segment of a path. -/
def extension? (path : List Char) : Option (List Char) :=
  let name := afterLast '/' path
  if name.contains '.' then some (afterLast '.' name) else none

/-- The media type of the file at a path. -/
def ofPath (path : String) : String :=
  match extension? path.toList with
  | none => fallback
  | some ext => (table.lookup (String.ofList (Text.lower ext))).getD fallback

/-- No type of the table holds a line break, so none can end a field of an answer's head. -/
theorem table_has_no_line_break :
    table.all (fun e => !e.2.toList.contains '\r' && !e.2.toList.contains '\n') = true := by
  decide

example : ofPath "LOGO.PNG" = "image/png" := by decide
example : ofPath "/dir.d/README" = fallback := by decide
example : ofPath "archive.tar.gz" = fallback := by decide

end ContentServer.MediaType
