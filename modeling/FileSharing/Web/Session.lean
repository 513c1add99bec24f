import FileSharing.Web.Message

/-!
Package `wrapper`: the session of a storage is a cookie under the storage's name.
-/

namespace FileSharing
open Net Effects

/-- CookieSession; the period is in seconds. -/
structure CookieSession where
  expirePeriod : Int64
deriving DecidableEq

/-- http.SetCookie: a cookie without a legal name adds no header. -/
def httpSetCookie (c : Cookie) : Act Unit :=
  if isToken c.name then tell (.addCookie { c with value := sanitizeCookieValue c.value })
  else pure ()

namespace CookieSession

def getToken (name : Bytes) (r : Request) : Option Bytes :=
  if name = [] then none else (r.cookies.find? fun cook => cook.1 = name).map (·.2)

/-- Duration(expirePeriod) * Second, in 64-bit nanoseconds. -/
def period (cs : CookieSession) : Int64 := cs.expirePeriod * 1000000000

def setToken (cs : CookieSession) (token name : Bytes) : Act Unit := do
  let now ← now
  httpSetCookie ⟨name, token, str "/", now + cs.period.toInt, true⟩

end CookieSession
end FileSharing
