import FileSharing.Net.Percent

/-!
Cookies as `net/http` sends and reads them. A cookie whose name is not an HTTP
token is not sent at all, and illegal bytes are dropped from its value.
-/

namespace Net

def isTokenByte (c : UInt8) : Bool := isAlnum c || (str "!#$%&'*+-.^_`|~").contains c

/-- An HTTP token, as isCookieNameValid asks for. -/
def isToken (s : Bytes) : Bool := !s.isEmpty && s.all isTokenByte

def validCookieValueByte (c : UInt8) : Bool :=
  0x20 ≤ c && c < 0x7F && c != 0x22 && c != 0x3B && c != 0x5C

/-- The value a cookie comes back with. The quotes that a space or a comma needs
on the wire are added and removed by `net/http` itself. -/
def sanitizeCookieValue (v : Bytes) : Bytes := v.filter validCookieValueByte

/-- http.Cookie, its expiry in nanoseconds of the clock. -/
structure Cookie where
  name : Bytes
  value : Bytes
  path : Bytes
  expires : Int
  httpOnly : Bool
deriving DecidableEq

theorem sanitizeCookieValue_legal {v : Bytes} (h : v.all validCookieValueByte = true) :
    sanitizeCookieValue v = v :=
  List.filter_eq_self.mpr (List.all_eq_true.mp h)

end Net
