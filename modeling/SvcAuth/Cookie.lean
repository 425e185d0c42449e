import SvcAuth.Http

/-! The three cookies: their names under the two configurations, the lines that set and
clear them, and how a value is read back from a `Cookie` header. -/
namespace SvcAuth

structure CookieConfig where
  secure : Bool
  refreshMaxAge : UInt64
  accessMaxAge : UInt64
  deriving DecidableEq, Repr

namespace CookieConfig

def new (secure : Bool) (refreshTtlSecs accessTtlSecs : UInt64) : CookieConfig :=
  ⟨secure, refreshTtlSecs, accessTtlSecs⟩

def refreshCookieName (c : CookieConfig) : String :=
  if c.secure then "__Host-refresh_token" else "refresh_token"

def accessCookieName (c : CookieConfig) : String :=
  if c.secure then "__Host-access_token" else "access_token"

def sessionCookieName (D : Deps) (c : CookieConfig) : String := D.sessionCookieName c.secure

theorem names_distinct (D : Deps) (c : CookieConfig) :
    c.accessCookieName ≠ c.refreshCookieName ∧ c.sessionCookieName D ≠ c.accessCookieName ∧
      c.sessionCookieName D ≠ c.refreshCookieName := by
  have hapart := D.sessionCookieName_apart c.secure
  simp only [List.mem_cons, List.not_mem_nil, or_false, not_or] at hapart
  obtain ⟨hsecure, hsecure', hplain, hplain'⟩ := hapart
  unfold accessCookieName refreshCookieName sessionCookieName
  cases hs : c.secure with
  | true =>
    rw [hs] at hsecure hsecure'
    exact ⟨by decide, hsecure, hsecure'⟩
  | false =>
    rw [hs] at hplain hplain'
    exact ⟨by decide, hplain, hplain'⟩

end CookieConfig

def buildCookie (name value : String) (maxAge : UInt64) (secure : Bool) : SetCookie :=
  ⟨name, value, secure, .Strict, some maxAge⟩

def buildAccessCookie (token : String) (config : CookieConfig) : SetCookie :=
  buildCookie config.accessCookieName token config.accessMaxAge config.secure

def buildClearAccessCookie (config : CookieConfig) : SetCookie :=
  buildCookie config.accessCookieName "" 0 config.secure

def buildRefreshCookie (token : String) (config : CookieConfig) : SetCookie :=
  buildCookie config.refreshCookieName token config.refreshMaxAge config.secure

def buildClearRefreshCookie (config : CookieConfig) : SetCookie :=
  buildCookie config.refreshCookieName "" 0 config.secure

def buildSessionCookie (D : Deps) (sessionId : String) (config : CookieConfig) : SetCookie :=
  ⟨config.sessionCookieName D, sessionId, config.secure, .Lax, none⟩

/-- `str::trim` on what `to_str` lets through. -/
def trim (cs : List Char) : List Char :=
  ((cs.dropWhile Char.isWhitespace).reverse.dropWhile Char.isWhitespace).reverse

/-- `strip_prefix`. -/
def stripPrefix (pre cs : List Char) : Option (List Char) :=
  if pre.isPrefixOf cs then some (cs.drop pre.length) else none

def extractCookie (headers : HeaderMap) (cookieName : String) : Option String := do
  let cookieHeader ← headers.cookie >>= HeaderValue.toStr
  let wanted := (cookieName ++ "=").toList
  (cookieHeader.toList.splitOn ';').findSome? fun c =>
    (stripPrefix wanted (trim c)).map String.ofList

def extractAccessCookie (headers : HeaderMap) (config : CookieConfig) : Option String :=
  extractCookie headers config.accessCookieName

def extractRefreshCookie (headers : HeaderMap) (config : CookieConfig) : Option String :=
  extractCookie headers config.refreshCookieName

def extractSessionCookie (D : Deps) (headers : HeaderMap) (config : CookieConfig) :
    Option String := do
  let cookieHeader ← headers.cookie >>= HeaderValue.toStr
  D.extractSessionId cookieHeader config.secure

example : extractCookie ⟨some ("access_token=jwt; refresh_token=rt".toList.map
    fun c => UInt8.ofNat c.toNat), none⟩ "refresh_token" = some "rt" := by decide

end SvcAuth
