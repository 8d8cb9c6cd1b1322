import ContentServer.Fault.System
import ContentServer.Http.Status

/-!
# Faults of the server

Everything that can go wrong between start and shutdown is a `Fault`.  There are five groups.

* A *request fault* is a head that cannot be accepted.  It is answered and ends the connection.
* A *missing resource* becomes an answer and goes no further.
* A *provider fault* is a failure of the source of pages and posts.
* A *transport fault* is a failure to read from or write to a connection.
* A *start fault* is a failure to read the settings or to open the listener.

Each has one message (`Fault.message`) and one status (`Fault.status`).
-/

namespace ContentServer

/-- Why a request head is refused. -/
inductive RequestFault where
  /-- The request line or a field cannot be read. -/
  | malformed
  /-- The version of the protocol is neither 1.0 nor 1.1. -/
  | unsupportedVersion
  /-- The head is longer than allowed. -/
  | headTooLarge
  /-- The announced body is longer than allowed. -/
  | bodyTooLarge
deriving DecidableEq, Repr

/-- What can go wrong in the server. -/
inductive Fault where
  /-- A request head is refused. -/
  | request (cause : RequestFault)
  /-- There is no such file below the document root. -/
  | fileNotFound
  /-- There is no such post. -/
  | postNotFound
  /-- The source of pages and posts failed. -/
  | provider (text : String)
  /-- Reading from or writing to a connection or a file failed. -/
  | transport (error : SystemError)
  /-- A whole request did not arrive in time. -/
  | readTimeout
  /-- The client closed the connection in the middle of a request. -/
  | peerClosed
  /-- The settings could not be read. -/
  | settings (text : String)
  /-- The listener could not be opened. -/
  | listener (text : String)
deriving DecidableEq, Repr

namespace Fault

/-- The sentence that reports a fault. -/
def message : Fault → String
  | .request .malformed => "Malformed HTTP request"
  | .request .unsupportedVersion => "Unsupported HTTP version"
  | .request .headTooLarge => "Request header too large"
  | .request .bodyTooLarge => "Request body too large"
  | .fileNotFound => "File not found (404)"
  | .postNotFound => "Post not found (404)"
  | .provider text => "Content provider failure: " ++ text
  | .transport e => "Transport error (" ++ e.kind.name ++ "): " ++ e.text
  | .readTimeout => "The socket was closed due to a timeout"
  | .peerClosed => "Peer closed the connection mid-request"
  | .settings text => "Invalid configuration: " ++ text
  | .listener text => "Listener setup failed: " ++ text

/-- Whether a fault lies in the request, so that it is answered before the connection ends. -/
def isProtocol : Fault → Bool
  | .request _ => true
  | _ => false

/-- Whether a fault is part of an ordinary end of a connection and no failure to report. -/
def isBenign : Fault → Bool
  | .readTimeout => true
  | .transport e =>
    [.connectionReset, .connectionAborted, .brokenPipe, .notConnected, .timedOut,
      .unexpectedEof].contains e.kind
  | _ => false

/-- The status with which a fault is answered. -/
def status : Fault → Status
  | .request .bodyTooLarge => .contentTooLarge
  | .fileNotFound => .notFound
  | .postNotFound => .notFound
  | .provider _ => .internalServerError
  | _ => .badRequest

end Fault

end ContentServer
