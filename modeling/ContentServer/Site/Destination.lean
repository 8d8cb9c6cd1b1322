import ContentServer.Http.Request
import ContentServer.Site.Rules

/-!
# Where requests lead

A request leads to one destination, which only depends on its method and its target.  The first of
these rules that applies decides.

* A method other than `GET` and `HEAD` is refused.
* A target that does not start with a slash, or that holds two points in a row, is refused.
* `GET` with no path but the slash leads to the page `index`.
* `GET` with the target `/about` leads to the page `about`.
* `GET` with `/posts/` in its target leads to a post.  The second segment of the path is the number
  of the post, in digits and below 2⁶⁴.  There is no post 0, and what is no such number leads
  nowhere.
* Everything else leads to the file at the path.

Pages and posts are *resources*.  Their documents are kept in the cache under a key that is made
of the tenant and the resource.
-/

namespace ContentServer

/-- The pages that a site has. -/
inductive PageName where
  | index | about
deriving DecidableEq, Repr

/-- The name of a page in paths and keys. -/
def PageName.text : PageName → String
  | .index => "index"
  | .about => "about"

/-- What is rendered. -/
inductive Resource where
  /-- A page. -/
  | page (name : PageName)
  /-- A post with its number. -/
  | post (id : Nat)
deriving DecidableEq, Repr

namespace Resource

/-- The key of a tenant's resource in the cache. -/
def key (tenant : String) : Resource → String
  | .page name => tenant ++ "_page_" ++ name.text
  | .post id => tenant ++ "_post_" ++ toString id

/-- Whether the documents of a resource are cached. -/
def isCached (rules : Rules) : Resource → Bool
  | .page _ => rules.cachePages
  | .post _ => rules.cachePosts

end Resource

/-- Why a request is not served. -/
inductive Refusal where
  /-- The method is neither `GET` nor `HEAD`. -/
  | method
  /-- The target is no path, or it leads upwards. -/
  | target
deriving DecidableEq, Repr

/-- What a client is told when its request is not served. -/
def Refusal.message : Refusal → String
  | .method => "Unknown HTTP-method"
  | .target => "Illegal request-target"

/-- Where a request leads. -/
inductive Destination where
  /-- It is not served. -/
  | refused (why : Refusal)
  /-- A document that is rendered. -/
  | resource (resource : Resource)
  /-- A post that cannot exist. -/
  | nowhere
  /-- The file at a path below the document root. -/
  | file (path : String)
deriving DecidableEq, Repr

namespace Destination

/-- The segments of a path, without the slash that it starts with.  The slash alone has none. -/
def segments (path : List Char) : List (List Char) :=
  let rest := if path.head? = some '/' then path.tail else path
  if rest.isEmpty then [] else List.splitOn '/' rest

/-- What the numbers of posts are below. -/
def postBound : Nat := UInt64.size

/-- The number of a post that a segment denotes. -/
def postId? (segment : List Char) : Option Nat :=
  (Text.digits? segment).filter fun n => 0 < n && n < postBound

/-- Where a request with a legal target leads. -/
def ofTarget (method : Method) (target path : String) : Destination :=
  if method = .get && (segments path.toList).isEmpty then .resource (.page .index)
  else if method = .get && target = "/about" then .resource (.page .about)
  else if method = .get && Text.occursIn "/posts/".toList target.toList then
    match (segments path.toList)[1]?.bind postId? with
    | some id => .resource (.post id)
    | none => .nowhere
  else .file path

/-- Whether a target is a path that does not lead upwards. -/
def isLegalTarget (target : String) : Bool :=
  target.toList.head? = some '/' && !Text.occursIn "..".toList target.toList

end Destination

/-- Where a request leads. -/
def Request.destination (r : Request) : Destination :=
  if r.method != .get && r.method != .head then .refused .method
  else if !Destination.isLegalTarget r.target then .refused .target
  else Destination.ofTarget r.method r.target r.path

namespace Destination

example : segments "/posts/".toList = ["posts".toList, []] := by decide
example : postId? "007".toList = some 7 := by decide
example : ["0", "000", "+1", "", "18446744073709551616"].map (fun s => postId? s.toList)
    = List.replicate 5 none := by decide

end Destination

end ContentServer
