import SvcAuth.Dependencies

/-! Requests and responses as the handlers see them: the two request headers they read,
and a response's status, `Set-Cookie` lines, actor headers and JSON body. -/
namespace SvcAuth

/-- Raw header bytes. -/
abbrev HeaderValue := Bytes

/-- `HeaderValue::to_str`: visible ASCII, space and tab only. -/
def HeaderValue.toStr (v : HeaderValue) : Option String :=
  if v.all fun b => (32 ≤ b && b < 127) || b == 9 then
    some (String.ofList (v.map fun b => Char.ofNat b.toNat))
  else none

structure HeaderMap where
  cookie : Option HeaderValue
  authorization : Option HeaderValue
  deriving DecidableEq, Repr

inductive SameSite
  | Strict | Lax
  deriving DecidableEq, Repr

def SameSite.render : SameSite → String
  | .Strict => "Strict"
  | .Lax => "Lax"

/-- One `Set-Cookie` line by its parts; every line is `HttpOnly` with `Path=/`. -/
structure SetCookie where
  name : String
  value : String
  secure : Bool
  sameSite : SameSite
  maxAge : Option UInt64
  deriving DecidableEq, Repr

/-- The line as it is written. -/
def SetCookie.render (c : SetCookie) : String :=
  c.name ++ "=" ++ c.value ++ "; HttpOnly" ++ (if c.secure then "; Secure" else "") ++
    "; SameSite=" ++ c.sameSite.render ++ "; Path=/" ++
    (match c.maxAge with
      | none => ""
      | some age => "; Max-Age=" ++ toString age.toNat)

structure Response where
  status : ℕ
  setCookie : List SetCookie
  headers : List (String × String)
  body : Json

namespace Response

/-- A bare status. -/
def ofStatus (status : ℕ) : Response := ⟨status, [], [], .null⟩

def json (status : ℕ) (body : Json) : Response := ⟨status, [], [], body⟩

/-- `headers_mut().insert(SET_COOKIE, ..)`: earlier lines go. -/
def insertCookie (r : Response) (c : SetCookie) : Response := { r with setCookie := [c] }

def appendCookie (r : Response) (c : SetCookie) : Response :=
  { r with setCookie := r.setCookie ++ [c] }

/-- Two lines, the first replacing what was there. -/
def withCookies (r : Response) (first second : SetCookie) : Response :=
  (r.insertCookie first).appendCookie second

@[simp] theorem withCookies_setCookie (r : Response) (a b : SetCookie) :
    (r.withCookies a b).setCookie = [a, b] := rfl

@[simp] theorem appendCookie_setCookie (r : Response) (c : SetCookie) :
    (r.appendCookie c).setCookie = r.setCookie ++ [c] := rfl

end Response

inductive AppError
  | Unauthorized (message : String)
  | Validation (message : String)
  | Internal (message : String)
  deriving DecidableEq, Repr

def AppError.intoResponse (e : AppError) : Response :=
  let parts : ℕ × String × String := match e with
    | .Unauthorized message => (401, "unauthorized", message)
    | .Validation message => (400, "validation_error", message)
    | .Internal _ => (500, "internal_error", "an internal error occurred")
  .json parts.1 (.obj [("error", .str parts.2.1), ("message", .str parts.2.2)])

end SvcAuth
