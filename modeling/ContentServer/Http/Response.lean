import ContentServer.Codec
import ContentServer.Http.Date
import ContentServer.Http.MediaType
import ContentServer.Http.Request

/-!
# Responses

A response is a head and a body.  There are five kinds: a file, a rendered document, and answers
for a bad request, a missing resource and a failure of the server.  Each is made by one function
of this module.

* Except for `protocolError`, which answers bytes that are no request, a response has the version
  of its request and keeps the connection open if the request asks for that.
* A response to `HEAD` announces the length of the body that `GET` gets, and has none.
* A rendered document may be encoded in a coding that the client accepts.  If the encoder fails it
  is sent as it is.
* The length of a file is announced before the file is read.  A file that has become shorter by
  then is sent as far as it goes, and writing it fails.

`Response.write` gives the bytes of a response with the outcome of writing them.
-/

namespace ContentServer

namespace Response

/-- What a response is about. -/
inductive Kind where
  | staticFile | rendered | badRequest | notFound | serverError
deriving DecidableEq, Repr

/-- What follows the head. -/
inductive Body where
  /-- Nothing. -/
  | empty
  /-- These bytes. -/
  | bytes (content : Bytes)
  /-- The first `length` bytes of a file. -/
  | file (content : Bytes) (length : Nat)
deriving DecidableEq, Repr

end Response

/-- What the server answers. -/
structure Response where
  /-- What the response is about. -/
  kind : Response.Kind
  /-- The version in the status line. -/
  version : Version
  /-- The status. -/
  status : Status
  /-- The media type of the body. -/
  contentType : String
  /-- The coding of the body, if it is encoded. -/
  coding : Option Coding := none
  /-- The announced length of the body. -/
  contentLength : Nat
  /-- The wall clock when the response was made. -/
  date : Nat
  /-- Whether the connection stays open. -/
  keepAlive : Bool
  /-- What follows the head. -/
  body : Response.Body
deriving DecidableEq, Repr

namespace Response

/-- The name under which the server shows itself. -/
def serverName : String := "shaneyale-cms"

/-! ## Making responses -/

/-- A body of bytes for a request, which is left out for `HEAD`. -/
def bodyFor (request : Request) (content : Bytes) : Body :=
  if request.method = .head then .empty else .bytes content

/-- A response with a short text. -/
def text (request : Request) (kind : Kind) (status : Status) (wall : Nat) (message : String) :
    Response where
  kind := kind
  version := request.version
  status := status
  contentType := MediaType.html
  contentLength := (Bytes.ofText message).length
  date := wall
  keepAlive := request.keepAlive
  body := bodyFor request (Bytes.ofText message)

/-- The answer to a method or a target that is not served. -/
def badRequest (request : Request) (wall : Nat) (why : String) : Response :=
  text request .badRequest .badRequest wall why

/-- The answer where there is no such resource. -/
def notFound (request : Request) (wall : Nat) : Response :=
  text request .notFound .notFound wall ("The resource '" ++ request.target ++ "' was not found.")

/-- The answer where the server failed. -/
def serverError (request : Request) (wall : Nat) (what : String) : Response :=
  text request .serverError .internalServerError wall ("An error occurred: '" ++ what ++ "'")

/-- The answer to a fault where there is no request to answer.  It closes the connection. -/
def protocolError (fault : Fault) (wall : Nat) : Response where
  kind :=
    match fault.status with
    | .internalServerError => .serverError
    | .notFound => .notFound
    | _ => .badRequest
  version := .v11
  status := fault.status
  contentType := MediaType.html
  contentLength := (Bytes.ofText fault.message).length
  date := wall
  keepAlive := false
  body := .bytes (Bytes.ofText fault.message)

/-- A document in the coding that is wanted for it, or as it is. -/
def encode (codecs : Codecs) (wanted : Option Coding) (document : Bytes) :
    Option Coding × Bytes :=
  match wanted with
  | none => (none, document)
  | some c =>
    match (codecs c).encode document with
    | none => (none, document)
    | some encoded => (some c, encoded)

/-- A rendered document, encoded if that is allowed and the client accepts a coding. -/
def html (codecs : Codecs) (request : Request) (wall : Nat) (document : String)
    (compress : Bool) : Response :=
  let wanted := if compress then Coding.choose request.codings else none
  let (coding, content) := encode codecs wanted (Bytes.ofText document)
  { kind := .rendered
    version := request.version
    status := .ok
    contentType := MediaType.html
    coding := coding
    contentLength := content.length
    date := wall
    keepAlive := request.keepAlive
    body := bodyFor request content }

/-- A file with the length that it had when it was opened. -/
def file (request : Request) (wall : Nat) (content : Bytes) (length : Nat) (mediaType : String) :
    Response where
  kind := .staticFile
  version := request.version
  status := .ok
  contentType := mediaType
  contentLength := length
  date := wall
  keepAlive := request.keepAlive
  body := if request.method = .head then .empty else .file content length

/-! ## Writing responses -/

/-- The lines of the head, without their ends. -/
def headLines (r : Response) : List String :=
  [r.version.token ++ " " ++ toString r.status.code ++ " " ++ r.status.reason,
   "Content-Type: " ++ r.contentType] ++
  (match r.coding with
    | none => []
    | some c => ["Content-Encoding: " ++ c.token, "Vary: Accept-Encoding"]) ++
  ["Content-Length: " ++ toString r.contentLength,
   "Date: " ++ Date.format r.date,
   "Server: " ++ serverName,
   "Connection: " ++ (if r.keepAlive then "keep-alive" else "close")]

/-- The text of the head, with the empty line that ends it. -/
def head (r : Response) : String :=
  String.join (r.headLines.map (· ++ "\r\n")) ++ "\r\n"

/-- Whether there is a body, be it an empty one. -/
def hasBody (r : Response) : Bool := r.body != .empty

/-- The body, if it is held as bytes. -/
def bytes? (r : Response) : Option Bytes :=
  match r.body with
  | .bytes content => some content
  | _ => none

/-- The failure to send a file that has become shorter. -/
def shrunk (copied length : Nat) : Fault :=
  .transport ⟨.unexpectedEof, "file shrank while sending: " ++ toString copied ++ " of " ++
    toString length ++ " bytes"⟩

/-- The bytes of a body and the number of them, or why they are not all there. -/
def Body.write : Body → Bytes × Except Fault Nat
  | .empty => ([], .ok 0)
  | .bytes content => (content, .ok content.length)
  | .file content length =>
    let sent := content.take length
    (sent, if sent.length < length then .error (shrunk sent.length length) else .ok sent.length)

/-- The bytes of a response and the number of bytes of its body, or why they are not all there. -/
def write (r : Response) : Bytes × Except Fault Nat :=
  let (sent, outcome) := r.body.write
  (Bytes.ofText r.head ++ sent, outcome)

/-- The document that a client reads off a body, once it has undone the coding. -/
def decoded? (codecs : Codecs) (r : Response) (body : Bytes) : Option Bytes :=
  match r.coding with
  | none => some body
  | some c => (codecs c).decode body

end Response

end ContentServer
