import ContentServer.Text.Search

/-!
# Rules of a site

A site serves several tenants.  The host that a request names decides which tenant it is for: the
tenant of the first rule whose pattern occurs in the host, and the default tenant where there is
no such rule.  The rules also say which documents are cached, for how long, and whether they are
encoded.
-/

namespace ContentServer

/-- A tenant and the text that hosts of this tenant contain. -/
structure TenantRule where
  /-- What occurs in the host. -/
  pattern : String
  /-- The tenant. -/
  tenant : String
deriving DecidableEq, Repr

/-- How requests are served. -/
structure Rules where
  /-- How many seconds a cached document can be served. -/
  pageLife : Nat := 900
  /-- Whether pages are cached. -/
  cachePages : Bool := true
  /-- Whether posts are cached. -/
  cachePosts : Bool := false
  /-- Whether rendered documents are encoded for clients that accept it. -/
  compress : Bool := true
  /-- The tenant where no rule applies. -/
  defaultTenant : String := "localhost"
  /-- The rules for tenants, the first one that applies first. -/
  tenants : List TenantRule := [⟨"quizbin.com", "quizbin"⟩]
deriving DecidableEq, Repr

namespace Rules

/-- Whether a rule applies to a host. -/
def applies (host : String) (rule : TenantRule) : Bool :=
  Text.occursIn rule.pattern.toList host.toList

/-- The tenant that a host belongs to. -/
def tenantFor (rules : Rules) (host : String) : String :=
  match rules.tenants.find? (applies host) with
  | some rule => rule.tenant
  | none => rules.defaultTenant

example : ({} : Rules).tenantFor "www.quizbin.com" = "quizbin" := by decide
example : ({} : Rules).tenantFor "" = "localhost" := by decide

end Rules

end ContentServer
