import FileSharing.Web.HttpError
import FileSharing.Web.ResponseWriter
import FileSharing.Web.Session

/-!
handlers.go: the request parameters, the three ways of making a gateway request,
and the one place where a gateway response is judged.
-/

namespace FileSharing
open Net Effects

/-- The library functions whose results the handlers only pass on. A decoder
sees the body as it was delivered, its read error included. -/
structure Stdlib where
  parseURL : Bytes → Option ParsedURL
  newRequestErr : Bytes → Option Bytes
  encodeError : Int → Bytes → Bytes
  decodeError : Body → Except Bytes (Int × Bytes)
  decodeFiles : Body → Except Bytes (List FileInfo)

/-- The library on the inputs that concrete runs below give it: relative URLs,
ASCII descriptions without quotes, and bodies that are empty or hold no file. -/
def Stdlib.plain : Stdlib where
  parseURL _ := some ⟨[], []⟩
  newRequestErr _ := none
  encodeError code description :=
    str "\x7b\"code\":" ++ str (toString code) ++ str ",\"description\":\"" ++ description ++
      str "\"\x7d\n"
  decodeError body := .error (body.err.getD (str "EOF"))
  decodeFiles body :=
    if body.data = str "[]" ∧ body.err = none then .ok []
    else .error (body.err.getD (str "EOF"))

structure Handler where
  gwh : Bytes
  session : CookieSession
  lib : Stdlib

def Handler.plain : Handler := { gwh := str "http://gateway", session := ⟨3600⟩, lib := .plain }

def HttpError.json (lib : Stdlib) (e : HttpError) : Bytes := lib.encodeError e.code e.description

def HttpError.writeJSON (lib : Stdlib) (e : HttpError) : Act Unit := do
  tell (.setHeader (str "Content-Type") (str "application/json; charset=utf-8"))
  tell (.writeHeader 400)
  tell (.write (e.json lib))

def Handler.error (h : Handler) (err : HttpError) (handler : Bytes) : Act Unit := do
  tell (.logHandlerError handler err)
  err.writeJSON h.lib

structure StorageParameters where
  storageName : Bytes
  isPublic : Bool
  isPermanent : Bool
  fileName : Bytes
deriving DecidableEq

def StorageParameters.values (sp : StorageParameters) : Values :=
  let values := Values.add [] (str "storage") sp.storageName
  let values := if sp.isPublic then values.add (str "public") (str "true") else values
  let values := if sp.isPermanent then values.add (str "permanent") (str "true") else values
  values.add (str "file") sp.fileName

/-- A missing context value is replaced, any other error is wrapped. -/
def orDefault {α : Type} (text : Bytes) (missing : α) : Except Ctxinfo.Err α → Except Bytes α
  | .ok a => .ok a
  | .error .notFound => .ok missing
  | .error (.wrongType err) => .error (text ++ str ": " ++ err)

def requestParameters (r : Request) : Except Bytes StorageParameters := do
  let storageName ← orDefault (str "unable to get storage name") [] (Ctxinfo.userName r.ctx)
  let isPublic ← orDefault (str "unable to get public storage") false (Ctxinfo.publicStorage r.ctx)
  let isPermanent ←
    orDefault (str "unable to get permanent storage") false (Ctxinfo.permanentStorage r.ctx)
  let fileName ← orDefault (str "unable to get file name") [] (Ctxinfo.fileName r.ctx)
  pure { storageName, isPublic, isPermanent, fileName }

/-- What an inner handler panicked with. -/
inductive PanicValue where
  | error (text : Bytes)
  | other
deriving DecidableEq

inductive Completion where
  | returned
  | panicked (v : PanicValue)
deriving DecidableEq

/-- Every panic is recovered; only an error value is answered. -/
def Handler.recoverMiddleware (h : Handler) (next : Request → Act Completion) (r : Request) :
    Act Unit := do
  match ← next r with
  | .panicked (.error text) =>
    h.error ((HttpError.newInternalError (str "recover from panic")).withError text)
      (str "RecoverHandler")
  | .panicked .other | .returned => pure ()

namespace Handler

variable (h : Handler)

def makeURL (endpoint : Bytes) : Bytes := h.gwh ++ str "/" ++ endpoint ++ str "/"

def sessionToken (r : Request) (storageName : Bytes) : Bytes :=
  (CookieSession.getToken storageName r).getD []

/-- What a response other than a 200 is turned into; its body stays open. -/
def gatewayError (rsp : GatewayResponse) : HttpError :=
  if rsp.statusCode = 400 then
    match h.lib.decodeError rsp.body with
    | .error err => (HttpError.newInternalError (str "json decode")).withError err
    | .ok (code, description) => { code, description, err := none }
  else HttpError.newInternalError (str "invalid status code")

def processRequest (req : GatewayRequest) (storageName : Bytes) :
    Act (Except HttpError GatewayResponse) := do
  match ← doRequest storageName req with
  | .error err => pure (.error ((HttpError.newInternalError (str "do request")).withError err))
  | .ok rsp =>
    if rsp.statusCode ≠ 200 then pure (.error (h.gatewayError rsp))
    else if rsp.xToken ≠ [] then do
      h.session.setToken rsp.xToken storageName
      pure (.ok rsp)
    else pure (.ok rsp)

def authorization (r : Request) (storageName : Bytes) : Option Bytes :=
  if sessionToken r storageName ≠ [] then some (str "Bearer " ++ sessionToken r storageName)
  else none

def makeGetRequest (originReq : Request) (storageName endpoint : Bytes) (values : Values) :
    Act (Except HttpError GatewayResponse) :=
  match h.lib.newRequestErr (h.makeURL endpoint) with
  | some err => pure (.error ((HttpError.newInternalError (str "make get request")).withError err))
  | none =>
    h.processRequest
      { method := str "GET"
        url := h.makeURL endpoint
        rawQuery := values.encode
        body := []
        contentType := none
        authorization := authorization originReq storageName }
      storageName

def makePostRequest (originReq : Request) (storageName endpoint : Bytes) (values : Values) :
    Act (Except HttpError GatewayResponse) :=
  match h.lib.newRequestErr (h.makeURL endpoint) with
  | some err => pure (.error ((HttpError.newInternalError (str "make post request")).withError err))
  | none =>
    h.processRequest
      { method := str "POST"
        url := h.makeURL endpoint
        rawQuery := []
        body := values.encode
        contentType := some (str "application/x-www-form-urlencoded")
        authorization := authorization originReq storageName }
      storageName

end Handler
end FileSharing
