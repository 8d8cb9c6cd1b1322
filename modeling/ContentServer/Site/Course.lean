import ContentServer.FileTree
import ContentServer.Http.Response

/-!
# Files that change

While a session goes on, the files below the document root may change.  They may be others at each
answer.  And the file that an answer opens may change between being opened, when its length is
announced, and being sent.  A `Course` says what becomes of the files at each answer, and answers
are counted from 0.

A file that has become shorter cannot be sent as it was announced, and writing it fails
(`Response.write`).  The courses are those in which this does not happen, and a `Growth` brings that
with it.
-/

namespace ContentServer

/-- What becomes of a file between being opened and being sent.  It may grow and hold anything, but
it does not become shorter. -/
structure Growth where
  /-- What a file holds when it is sent, if it held these bytes when it was opened. -/
  sent : Bytes → Bytes
  length_le : ∀ content, content.length ≤ (sent content).length

/-- The file stays as it is. -/
def Growth.none : Growth := ⟨id, fun _ => Nat.le_refl _⟩

/-- What becomes of the files of a site from answer to answer.  They stay as they are if nothing is
said. -/
structure Course where
  /-- The files that an answer finds, if they were these at first. -/
  files : Nat → FileTree → FileTree := fun _ files => files
  /-- What becomes of the file that an answer opens. -/
  growth : Nat → Growth := fun _ => .none

namespace Response

/-- The body as it is when it is sent.  The length of a file is what it was when it was opened. -/
def Body.grown (growth : Growth) : Body → Body
  | .file content length => .file (growth.sent content) length
  | body => body

/-- The response as it is when it is written. -/
def grown (growth : Growth) (r : Response) : Response := { r with body := r.body.grown growth }

theorem grown_none (r : Response) : r.grown .none = r := by
  obtain ⟨kind, version, status, contentType, coding, contentLength, date, keepAlive, body⟩ := r
  cases body <;> rfl

-- A file of two bytes was opened.  It has three now, and two of them are sent.
example : (Body.grown ⟨(· ++ [7]), by simp⟩ (.file [1, 2] 2)).write = ([1, 2], .ok 2) := by rfl

end Response

end ContentServer
