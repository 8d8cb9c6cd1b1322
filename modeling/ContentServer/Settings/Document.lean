import ContentServer.FileTree
import ContentServer.Settings
import ContentServer.Toml.Document

/-!
# Settings from a document

The document of a server's settings is a record with these fields.

* `doc_root`, `content_root`: texts
* `port`: a number below 2¹⁶
* `worker_threads`, `cache_size`, `read_timeout`, `shutdown_timeout`, `max_body_size`: numbers
* `local`: a truth value
* `routing`: a record with the number `page_ttl`, the truth values `cache_pages`, `cache_posts` and
  `compress_html`, the text `default_tenant`, and `tenants`, an array of records with the two texts
  `host_pattern` and `tenant`

Fields that are left out have their defaults, except the two of a tenant, and fields with other
names do not matter.  A value of the wrong kind makes the document invalid.  A read timeout of 0
stands for the default.
-/

namespace ContentServer

open Toml (Value)

namespace Settings

/-- What numbers without a sign are below. -/
def numberBound : Nat := UInt64.size

/-- A field of a record, with a default where it is left out. -/
def optional {α : Type} (fields : String → Option Value) (name : String)
    (read : Value → Option α) (default : α) : Option α :=
  match fields name with
  | none => some default
  | some v => read v

/-- The rule for a tenant that a value is. -/
def tenantRule? (v : Value) : Option TenantRule := do
  let fields ← v.record? ["host_pattern", "tenant"]
  let pattern ← (← fields "host_pattern").text?
  let tenant ← (← fields "tenant").text?
  return { pattern, tenant }

/-- The rules that a value is. -/
def rules? (v : Value) : Option Rules := do
  let fields ← v.record?
    ["page_ttl", "cache_pages", "cache_posts", "compress_html", "default_tenant", "tenants"]
  let d : Rules := {}
  return {
    pageLife := ← optional fields "page_ttl" (Value.natural? numberBound) d.pageLife
    cachePages := ← optional fields "cache_pages" Value.boolean? d.cachePages
    cachePosts := ← optional fields "cache_posts" Value.boolean? d.cachePosts
    compress := ← optional fields "compress_html" Value.boolean? d.compress
    defaultTenant := ← optional fields "default_tenant" Value.text? d.defaultTenant
    tenants := ← optional fields "tenants" (fun v => v.items?.bind (·.mapM tenantRule?)) d.tenants }

/-- The settings that the entries of a document give. -/
def ofEntries? (entries : Toml.Entries) : Option Settings := do
  let fields := fun name => entries.lookup name
  let d : Settings := {}
  let number := Value.natural? numberBound
  let readTimeout ← optional fields "read_timeout" number d.readTimeout
  return {
    docRoot := ← optional fields "doc_root" Value.text? d.docRoot
    contentRoot := ← optional fields "content_root" Value.text? d.contentRoot
    port := UInt16.ofNat (← optional fields "port" (Value.natural? UInt16.size) d.port.toNat)
    isLocal := ← optional fields "local" Value.boolean? d.isLocal
    workers := ← optional fields "worker_threads" number d.workers
    cacheSize := ← optional fields "cache_size" number d.cacheSize
    readTimeout := if readTimeout = 0 then d.readTimeout else readTimeout
    shutdownTimeout := ← optional fields "shutdown_timeout" number d.shutdownTimeout
    maxBody := ← optional fields "max_body_size" number d.maxBody
    rules := ← optional fields "routing" rules? d.rules }

/-- The settings in a document, if it is valid. -/
def ofDocument? (document : String) : Option Settings :=
  (Toml.entries? document).bind ofEntries?

example : ofDocument? "" = some {} := by decide +kernel
example : ofDocument? "port = 65536" = none := by decide +kernel

/-! ## Settings from a file -/

/-- Why no settings could be read. -/
inductive Refusal where
  /-- The file at a path could not be read. -/
  | unreadable (path : String) (error : SystemError)
  /-- The file holds no valid document. -/
  | invalid
deriving DecidableEq, Repr

/-- The fault that stands for a refusal. -/
def Refusal.fault : Refusal → Fault
  | .unreadable path e => .settings ("无法读取配置文件" ++ path ++ "：" ++ e.text)
  | .invalid => .settings "not a valid settings document"

/-- The settings in the file at a path, in an environment. -/
def ofFile (files : FileTree) (path : String) (e : Environment) : Except Refusal Settings :=
  match files.readText path with
  | .error why => .error (.unreadable path why.system)
  | .ok document =>
    match ofDocument? document with
    | none => .error .invalid
    | some s => .ok (s.inEnvironment e)

end Settings

end ContentServer
