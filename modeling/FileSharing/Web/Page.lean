import FileSharing.Net.Href
import FileSharing.Web.Decision
import FileSharing.Web.Exchange

/-!
view.html in a browser: the links of the page, the requests of its script, and
how a browser gets from a link to the handler that answers it.
-/

namespace FileSharing
open Net Effects

/-- The href of the row of a file. -/
def rowLink (fileInfo : FileInfo) : Bytes := href fileInfo.name

/-- The relative targets that the page is written with. -/
def permanentLink : Bytes := str "permanent"
def uploadAction : Bytes := str "upload/"
def removeURL : Bytes := str "remove/"
def shareTextURL : Bytes := str "shareText/"

/-- An argument in the script; a missing one is undefined. -/
inductive JsValue where
  | undefined
  | number (n : Nat)
  | string (s : Bytes)

/-- jQuery.param writes undefined as an empty value. -/
def JsValue.param : JsValue → Bytes
  | .undefined => []
  | .number n => str (toString n)
  | .string s => s

/-- removeFileRequest(idx, fileName): the form that is posted. -/
def removeFileRequest (_idx fileName : JsValue) : Values := [(str "fileName", fileName.param)]

/-- The two ways to remove a file: the button of its row, and the link that
Dropzone adds to a file uploaded from the page. -/
inductive Removal where
  | row (index : Nat)
  | removedfile

/-- The form each of them posts for a file. -/
def Removal.form (fileName : Bytes) : Removal → Values
  | .row index => removeFileRequest (.number index) (.string fileName)
  | .removedfile => removeFileRequest (.string fileName) .undefined

/-- The segments of a storage's page. -/
def area (storage : Bytes) (isPermanent : Bool) : List Bytes :=
  if isPermanent then [storage, str "permanent"] else [storage]

/-- What the server reads from a request for a target; nothing when the path is
not percent-encoded. -/
def visit (method : Bytes) (t : Target) : Option Incoming :=
  (unescape t.path).map fun path =>
    { method, url := ⟨path, t.query.getD []⟩, cookies := [], form := [], multipart := .error [] }

/-- The Location with which the router itself answers. -/
def Dispatched.location (h : Handler) (request : Incoming) : Dispatched → Option Bytes
  | .redirect location => some location
  | .redirectHandler url =>
    some (hexEscapeNonASCII (redirectURL (h.lib.parseURL url) request.url.path url))
  | .endpoint .redirectCommon _ =>
    some (hexEscapeNonASCII
      (redirectURL (h.lib.parseURL (str "/common/")) request.url.path (str "/common/")))
  | _ => none

/-- A browser gets a target and follows the redirects of the router on its host, up
to the last target and what it is dispatched to. -/
inductive Arrives (h : Handler) (deployed : Bool) : Target → Target → Dispatched → Prop where
  | here {t : Target} {request : Incoming} (read : visit (str "GET") t = some request)
      (stays : (dispatch deployed request).location h request = none) :
      Arrives h deployed t t (dispatch deployed request)
  | redirected {t last : Target} {request : Incoming} {location : Bytes} {d : Dispatched}
      (read : visit (str "GET") t = some request)
      (moved : (dispatch deployed request).location h request = some location)
      (same : (follow t (headerValue location)).SameHost t)
      (rest : Arrives h deployed (follow t (headerValue location)) last d) :
      Arrives h deployed t last d

/-- The Location header of a dispatched request is the one its handler or the
router sets. -/
theorem serveHTTP_location (h : Handler) {deployed : Bool} {request : Incoming} {location : Bytes}
    (moved : (dispatch deployed request).location h request = some location) :
    (serveHTTP h deployed request).Ensures fun t _ =>
      told (.setHeader (str "Location") location) ∈ t := by
  have redirected : ∀ (r : Request) (url : Bytes) (code : Nat),
      told (.setHeader (str "Location")
        (hexEscapeNonASCII (redirectURL (h.lib.parseURL url) r.url.path url))) ∈
          redirectEvents h.lib r url code := fun _ _ _ => List.mem_cons_self
  rw [dispatch] at moved
  rw [serveHTTP]
  cases served : (routes deployed).serveHTTP ⟨request.method, request.url⟩ with
  | redirect url =>
      simp only [served, Dispatched.location] at moved
      simp [Option.some_inj.mp moved]
  | redirectHandler url =>
      simp only [served, Dispatched.location] at moved
      rw [ensures_httpRedirect, ← Option.some_inj.mp moved]
      exact redirected _ _ _
  | handle target vars =>
      simp only [served] at moved
      cases target with
      | metrics => cases moved
      | route r =>
          simp only at moved
          cases endpoint : r.handler with
          | redirectCommon =>
              simp only [endpoint, Dispatched.location] at moved
              simp only [Registered.serveHTTP, Handler.recoverMiddleware, storeRouterParametes,
                endpoint, Endpoint.serveHTTP, Program.ensures_bind, ensures_httpRedirect,
                Program.pure_eq, Program.ensures_pure, List.append_nil]
              rw [← Option.some_inj.mp moved]
              exact redirected _ _ _
          | fileServer | handler name =>
              rw [endpoint] at moved
              cases moved
  | methodNotAllowed | notFound =>
      rw [served] at moved
      cases moved

end FileSharing
