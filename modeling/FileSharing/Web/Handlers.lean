import FileSharing.Web.Multipart
import FileSharing.Web.Template

/-!
The eight handlers of package `handler`, each with its deferred calls written
at the point where they run.
-/

namespace FileSharing
open Net Effects

/-- io.Copy to the ResponseWriter: what was read is written, then the error is
reported. -/
def ioCopy (body : Body) : Act (Option Bytes) := do
  if body.data ≠ [] then tell (.write body.data)
  pure body.err

/-- ioutil.ReadAll. -/
def readAll (body : Body) : Except Bytes Bytes :=
  match body.err with
  | some err => .error err
  | none => .ok body.data

/-- `defer rsp.Body.Close()` around the rest of a handler. -/
def deferClose {α : Type} (rsp : GatewayResponse) (rest : Act α) : Act α := do
  let a ← rest
  tell (.closeBody rsp.body.id)
  pure a

def htmlEscape (s : Bytes) : Bytes :=
  s.flatMap fun c =>
    if c = 0x26 then str "&amp;"
    else if c = 0x3C then str "&lt;"
    else if c = 0x3E then str "&gt;"
    else if c = 0x22 then str "&#34;"
    else if c = 0x27 then str "&#39;"
    else [c]

def statusText (code : Nat) : Bytes :=
  if code = 301 then str "Moved Permanently" else if code = 302 then str "Found" else []

/-- http.Redirect on a response without a Content-Type. -/
def httpRedirect (lib : Stdlib) (r : Request) (url : Bytes) (code : Nat) : Act Unit := do
  let url := redirectURL (lib.parseURL url) r.url.path url
  tell (.setHeader (str "Location") (hexEscapeNonASCII url))
  if r.method = str "GET" ∨ r.method = str "HEAD" then
    tell (.setHeader (str "Content-Type") (str "text/html; charset=utf-8"))
  tell (.writeHeader code)
  if r.method = str "GET" then
    tell (.write (str "<a href=\"" ++ htmlEscape url ++ str "\">" ++ statusText code ++
      str "</a>.\n\n"))

/-- The deferred rendering of the login and the register page. -/
def renderPage (page : Page) : Act Unit := do
  let rendered ← executeTemplate page
  match rendered.err with
  | some err => tell (.logError err)
  | none => pure ()

/-- ioutil.ReadAll of a token, SetToken and the redirect to the storage. -/
def Handler.redirectWithToken (h : Handler) (r : Request) (rsp : GatewayResponse)
    (storageName handler : Bytes) : Act Bool :=
  deferClose rsp do
    match readAll rsp.body with
    | .error err => do
      h.error ((HttpError.newInternalError (str "invalid session token")).withError err) handler
      pure true
    | .ok token => do
      h.session.setToken token storageName
      httpRedirect h.lib r (slash :: storageName) 302
      pure false

namespace Handler

variable (h : Handler) (r : Request)

def registerFailure (httpErr : HttpError) : Bytes :=
  if httpErr.code = codeAlreadyExist then str "storage with this name already exists"
  else httpErr.description

/-- RegisterHandler without its deferred rendering: the page data, and whether
it is to be rendered. -/
def registerBody : Act (TemplateRegister × Bool) :=
  if r.method ≠ str "POST" then pure (.new, true)
  else
    let userInfo : TemplateRegister :=
      { TemplateRegister.new with
        storageName := r.formValue (str "name"), password := r.formValue (str "password") }
    if userInfo.storageName = [] then
      pure (userInfo.addError (str "name") (str "please specify storage name"), true)
    else do
      let values := Values.add [] (str "storage") userInfo.storageName
      let values := values.add (str "password") userInfo.password
      match ← h.makePostRequest r userInfo.storageName (str "register") values with
      | .error httpErr =>
        pure (userInfo.addError (str "common") (registerFailure httpErr), true)
      | .ok rsp => do
        let render ← h.redirectWithToken r rsp userInfo.storageName (str "RegisterHandler")
        pure (userInfo, render)

def registerHandler : Act Unit := do
  let (userInfo, renderTemplate) ← h.registerBody r
  if renderTemplate then renderPage (.register userInfo)

def loginFailure (httpErr : HttpError) : Bytes :=
  if httpErr.code = codeNotExist then str "Invalid storage name or password"
  else if httpErr.code = codeNotMatch then str "Invalid storage name or password"
  else httpErr.description

/-- The page data of a login attempt with the complaints about missing fields. -/
def loginUserInfo (sp : StorageParameters) : TemplatePassword :=
  let userInfo := { TemplatePassword.new with password := r.formValue (str "password") }
  let userInfo :=
    if sp.storageName = [] then
      userInfo.addError (str "name") (str "Please specify storage name to login")
    else userInfo
  if userInfo.password = [] then
    userInfo.addError (str "password") (str "Please enter password to login")
  else userInfo

/-- LoginHandler without its deferred rendering. -/
def loginBody : Act (TemplatePassword × Bool) :=
  if r.method ≠ str "POST" then pure (.new, true)
  else
    match requestParameters r with
    | .error err => do
      h.error ((HttpError.newInvalidParams (str "request parametes")).withError err)
        (str "LoginHandler")
      pure (.new, true)
    | .ok sp =>
      let userInfo := loginUserInfo r sp
      if userInfo.base.errors.length > 0 then pure (userInfo, true)
      else do
        let values := sp.values.add (str "password") userInfo.password
        match ← h.makePostRequest r sp.storageName (str "login") values with
        | .error httpErr =>
          pure (userInfo.addError (str "common") (loginFailure httpErr), true)
        | .ok rsp => do
          let render ← h.redirectWithToken r rsp sp.storageName (str "LoginHandler")
          pure (userInfo, render)

def loginHandler : Act Unit := do
  let (userInfo, renderTemplate) ← h.loginBody r
  if renderTemplate then renderPage (.login userInfo)

def indexHTMLHandler : Act Unit :=
  match requestParameters r with
  | .error err =>
    h.error ((HttpError.newInvalidParams (str "request parametes")).withError err)
      (str "IndexHTMLHandler")
  | .ok sp => do
    match ← h.makeGetRequest r sp.storageName (str "index.html") sp.values with
    | .error httpErr => h.error httpErr (str "IndexHTMLHandler")
    | .ok rsp =>
      deferClose rsp do
        tell (.setHeader (str "Content-type") (str "text/html"))
        match ← ioCopy rsp.body with
        | some err =>
          h.error ((HttpError.newInternalError (str "can't copy file")).withError err)
            (str "IndexHTMLHandler")
        | none => pure ()

/-- Title is just a title for the view page. -/
def title : Bytes := str "Duplo"

def viewHandler : Act Unit :=
  match requestParameters r with
  | .error err =>
    h.error ((HttpError.newInvalidParams (str "request parametes")).withError err)
      (str "ViewHandler")
  | .ok sp => do
    match ← h.makeGetRequest r sp.storageName (str "list") sp.values with
    | .error httpErr => h.error httpErr (str "ViewHandler")
    | .ok fileResp =>
      deferClose fileResp do
        match h.lib.decodeFiles fileResp.body with
        | .error err =>
          h.error ((HttpError.newInternalError (str "files json decode error")).withError err)
            (str "ViewHandler")
        | .ok files => do
          let viewPermanentLink := !sp.isPermanent && !sp.isPublic
          let rendered ← executeTemplate (.view (.new title viewPermanentLink files))
          match rendered.err with
          | some err =>
            h.error ((HttpError.newInternalError (str "view error")).withError err)
              (str "ViewHandler")
          | none => pure ()

def uploadHandler : Act Unit :=
  match requestParameters r with
  | .error err =>
    h.error ((HttpError.newInvalidParams (str "request parametes")).withError err)
      (str "UploadHandler")
  | .ok sp => do
    match ← h.makeMultipartRequest r sp.storageName (str "upload") with
    | .error httpErr => h.error httpErr (str "GetFileHandler")
    | .ok rsp => deferClose rsp (tell (.writeHeader 200))

def removeHandler : Act Unit :=
  if r.formValue (str "fileName") = [] then
    h.error (HttpError.newInvalidParams (str "file name was not set")) (str "RemoveHandler")
  else
    match requestParameters r with
    | .error err =>
      h.error ((HttpError.newInternalError (str "request parametes")).withError err)
        (str "RemoveHandler")
    | .ok sp => do
      match ← h.makePostRequest r sp.storageName (str "remove") sp.values with
      | .error httpErr => h.error httpErr (str "RemoveHandler")
      | .ok rsp => deferClose rsp (tell (.writeHeader 200))

def getFileHandler : Act Unit :=
  match requestParameters r with
  | .error err =>
    h.error ((HttpError.newInvalidParams (str "request parametes")).withError err)
      (str "GetFileHandler")
  | .ok sp => do
    match ← h.makeGetRequest r sp.storageName (str "file") sp.values with
    | .error httpErr => h.error httpErr (str "GetFileHandler")
    | .ok rsp =>
      deferClose rsp do
        tell (.setHeader (str "Content-Disposition")
          (str "attachment; filename=\"" ++ sp.fileName ++ str "\""))
        match ← ioCopy rsp.body with
        | some err =>
          h.error ((HttpError.newInternalError (str "failed to transfer bytes")).withError err)
            (str "GetFileHandler")
        | none => pure ()

def shareTextHandler : Act Unit :=
  let title := r.formValue (str "title")
  let body := r.formValue (str "body")
  if title = [] ∨ body = [] then
    h.error
      (HttpError.newInvalidParams
        (str "title or body was not set; title = " ++ title ++ str " body = " ++ body))
      (str "ShareTextHandler")
  else
    match requestParameters r with
    | .error err =>
      h.error ((HttpError.newInvalidParams (str "request parametes")).withError err)
        (str "ShareTextHandler")
    | .ok sp => do
      let values := sp.values.add (str "title") title
      let values := values.add (str "body") body
      match ← h.makePostRequest r sp.storageName (str "shareText") values with
      | .error httpErr => h.error httpErr (str "ShareTextHandler")
      | .ok rsp => deferClose rsp (tell (.writeHeader 200))

end Handler

/-- The handlers of the interface that package `router` asks for. -/
inductive HandlerName where
  | registerHandler
  | loginHandler
  | indexHTMLHandler
  | viewHandler
  | uploadHandler
  | removeHandler
  | getFileHandler
  | shareTextHandler
deriving DecidableEq

def Handler.run (h : Handler) : HandlerName → Request → Act Unit
  | .registerHandler => h.registerHandler
  | .loginHandler => h.loginHandler
  | .indexHTMLHandler => h.indexHTMLHandler
  | .viewHandler => h.viewHandler
  | .uploadHandler => h.uploadHandler
  | .removeHandler => h.removeHandler
  | .getFileHandler => h.getFileHandler
  | .shareTextHandler => h.shareTextHandler

end FileSharing
