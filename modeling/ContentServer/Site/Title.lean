import ContentServer.Text.Blank
import ContentServer.Text.Pattern
import ContentServer.Text.Search

/-!
# Titles of documents

The title of a document is the text of its first heading of the first level.  A heading is an
opening tag `<h1`, anything up to the next `>`, a text that is as short as possible, and a closing
tag `</h1>`.  The `h` may have either case.  Blanks around the text are not part of the title.  If
there is no heading, or if only blanks stand in the first one, the document has no title.

The layout of a site holds a placeholder where the title goes.  `insert` fills in the first one.
-/

namespace ContentServer.Title

open Text (Pattern)

/-- What the layout holds in place of the title. -/
def placeholder : String := "<title>%REPLACE_WITH_TITLE_ID%</title>"

/-- What a heading looks like.  Its text is kept. -/
def headingPattern : Pattern :=
  .row [.word "<h1", .most (· != '>'), .word ">", .kept (.fewest fun _ => true), .word "</h1>"]

/-- The text of the first heading. -/
def heading? (html : List Char) : Option (List Char) :=
  (headingPattern.search html).bind Text.Way.text?

/-- The title of a document. -/
def ofDocument? (html : String) : Option String :=
  match heading? html.toList with
  | none => none
  | some text =>
    let title := Text.trim text
    if title.isEmpty then none else some (String.ofList title)

/-- The document with a title in place of its first placeholder. -/
def insert (title document : String) : String :=
  String.ofList (Text.replaceFirst placeholder.toList
    ("<title>" ++ title ++ "</title>").toList document.toList)

example : ofDocument? "<H1 id=x>\n Hi \n</h1>" = some "Hi" := by decide
example : ofDocument? "<h1></h1><h1>second</h1>" = none := by decide
example : ofDocument? "<h1 open" = none := by decide

end ContentServer.Title
