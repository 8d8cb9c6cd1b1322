/-!
# Status codes

An answer carries one of a few status codes and the reason phrase that belongs to it.
-/

namespace ContentServer

/-- The outcome that an answer reports. -/
inductive Status where
  | ok | badRequest | notFound | methodNotAllowed | requestTimeout | contentTooLarge
  | headerFieldsTooLarge | internalServerError | serviceUnavailable | versionNotSupported
deriving DecidableEq, Repr

namespace Status

/-- Every status. -/
def all : List Status :=
  [.ok, .badRequest, .notFound, .methodNotAllowed, .requestTimeout, .contentTooLarge,
   .headerFieldsTooLarge, .internalServerError, .serviceUnavailable, .versionNotSupported]

/-- The number of a status. -/
def code : Status → Nat
  | .ok => 200
  | .badRequest => 400
  | .notFound => 404
  | .methodNotAllowed => 405
  | .requestTimeout => 408
  | .contentTooLarge => 413
  | .headerFieldsTooLarge => 431
  | .internalServerError => 500
  | .serviceUnavailable => 503
  | .versionNotSupported => 505

/-- The reason phrase of a status. -/
def reason : Status → String
  | .ok => "OK"
  | .badRequest => "Bad Request"
  | .notFound => "Not Found"
  | .methodNotAllowed => "Method Not Allowed"
  | .requestTimeout => "Request Timeout"
  | .contentTooLarge => "Content Too Large"
  | .headerFieldsTooLarge => "Request Header Fields Too Large"
  | .internalServerError => "Internal Server Error"
  | .serviceUnavailable => "Service Unavailable"
  | .versionNotSupported => "HTTP Version Not Supported"

/-- The status with a given number. -/
def ofCode? (n : Nat) : Option Status := all.find? fun s => s.code == n

theorem ofCode?_code (s : Status) : ofCode? s.code = some s := by cases s <;> decide

end Status

end ContentServer
