import FileSharing.Effects.Program
import FileSharing.Net.Cookie
import FileSharing.Net.Location

/-!
The data that passes between a browser, the service and the gateway, and the
operations a handler performs: what it does to its ResponseWriter, the request
it sends to the gateway, and what it asks of the clock and of the templates.
The replies of all these operations are left to the world.
-/

namespace FileSharing
open Net Effects

/-- A context value under its dynamic type. -/
inductive Value where
  | vars (v : List (Bytes × Bytes))
  | string (s : Bytes)
  | bool (b : Bool)
  | int64 (n : Int)
deriving DecidableEq

/-- Context keys compare by their type and their value: mux uses numbers,
ctxinfo uses strings. -/
inductive Key where
  | mux (n : Nat)
  | info (name : Bytes)
deriving DecidableEq

abbrev Context : Type := List (Key × Value)

def Context.value (ctx : Context) (key : Key) : Option Value :=
  (ctx.find? fun entry => entry.1 = key).map (·.2)

def Context.withValue (ctx : Context) (key : Key) (v : Value) : Context := (key, v) :: ctx

/-- One part of a multipart request, with the points at which rebuilding it may
fail: creating its counterpart, or copying its contents. -/
structure Part where
  fileName : Bytes
  content : Bytes
  createErr : Option Bytes
  copyErr : Option Bytes
deriving DecidableEq

/-- What a multipart reader delivers up to the end or to the first error. -/
inductive PartStream where
  | eof (closeErr : Option Bytes)
  | failed (err : Bytes)
  | part (p : Part) (rest : PartStream)
deriving DecidableEq

/-- What a browser sends. `form` is what ParseMultipartForm leaves in r.Form and
`multipart` what MultipartReader returns. -/
structure Incoming where
  method : Bytes
  url : URL
  cookies : List (Bytes × Bytes)
  form : Values
  multipart : Except Bytes PartStream

/-- http.Request: what was sent, and the context it travels with. -/
structure Request extends Incoming where
  ctx : Context

def Incoming.withContext (r : Incoming) (ctx : Context) : Request := { r with ctx }

def Request.formValue (r : Request) (key : Bytes) : Bytes := r.form.get key

/-- A request to the gateway. -/
structure GatewayRequest where
  method : Bytes
  url : Bytes
  rawQuery : Bytes
  body : Bytes
  contentType : Option Bytes
  authorization : Option Bytes
deriving DecidableEq

/-- A response body: the bytes it delivers, and the error that cuts it short. -/
structure Body where
  id : Nat
  data : Bytes
  err : Option Bytes
deriving DecidableEq

structure GatewayResponse where
  statusCode : Nat
  xToken : Bytes
  body : Body
deriving DecidableEq

/-- httperror.Error. -/
structure HttpError where
  code : Int
  description : Bytes
  err : Option Bytes
deriving DecidableEq

structure FileInfo where
  name : Bytes
  size : Int
  modTime : Int
deriving DecidableEq

structure TemplateBase where
  name : Bytes
  errors : List (Bytes × Bytes)
deriving DecidableEq

structure TemplatePassword where
  base : TemplateBase
  password : Bytes
deriving DecidableEq

structure TemplateRegister where
  base : TemplateBase
  storageName : Bytes
  password : Bytes
deriving DecidableEq

structure TemplateView where
  base : TemplateBase
  title : Bytes
  needPermanentLink : Bool
  fileInfoList : List FileInfo
deriving DecidableEq

/-- The data a page template is executed with. -/
inductive Page where
  | login (t : TemplatePassword)
  | register (t : TemplateRegister)
  | view (t : TemplateView)
deriving DecidableEq

/-- A template execution: the bytes it wrote, and the error that stopped it. -/
structure Rendered where
  written : Bytes
  err : Option Bytes
deriving DecidableEq

/-- What a handler does without waiting for a reply. -/
inductive Command where
  | setHeader (key value : Bytes)
  | addCookie (c : Cookie)
  | writeHeader (code : Nat)
  | write (data : Bytes)
  | logHandlerError (handler : Bytes) (err : HttpError)
  | logError (err : Bytes)
  | closeBody (id : Nat)
  | serveFile (path : Bytes)
  | serveMetrics
deriving DecidableEq

inductive Op where
  | tell (c : Command)
  | executeTemplate (page : Page)
  | doRequest (storageName : Bytes) (req : GatewayRequest)
  | now
  | randomBoundary
deriving DecidableEq

def Op.Reply : Op → Type
  | .tell _ => Unit
  | .executeTemplate _ => Rendered
  | .doRequest _ _ => Except Bytes GatewayResponse
  | .now => Int
  | .randomBoundary => Bytes

abbrev world : Signature := ⟨Op, Op.Reply⟩
abbrev Act (α : Type) : Type := Program world α
abbrev Trace : Type := List (Event world)

instance (op : Op) : Inhabited (world.Reply op) where
  default :=
    match op with
    | .tell _ => ()
    | .executeTemplate _ => (⟨[], none⟩ : Rendered)
    | .doRequest _ _ => (.error [] : Except Bytes GatewayResponse)
    | .now => (0 : Int)
    | .randomBoundary => ([] : Bytes)

def tell (c : Command) : Act Unit := Program.perform (S := world) (.tell c)
def executeTemplate (page : Page) : Act Rendered :=
  Program.perform (S := world) (.executeTemplate page)
def doRequest (storageName : Bytes) (req : GatewayRequest) :
    Act (Except Bytes GatewayResponse) :=
  Program.perform (S := world) (.doRequest storageName req)
def now : Act Int := Program.perform (S := world) .now
def randomBoundary : Act Bytes := Program.perform (S := world) .randomBoundary

def told (c : Command) : Event world := ⟨.tell c, ()⟩
def executed (page : Page) (r : Rendered) : Event world := ⟨.executeTemplate page, r⟩
def asked (storageName : Bytes) (req : GatewayRequest) (reply : Except Bytes GatewayResponse) :
    Event world :=
  ⟨.doRequest storageName req, reply⟩
def clock (t : Int) : Event world := ⟨.now, t⟩
def drawn (boundary : Bytes) : Event world := ⟨.randomBoundary, boundary⟩

@[simp] theorem ensures_tell (c : Command) (Q : Trace → Unit → Prop) :
    (tell c).Ensures Q ↔ Q [told c] () :=
  ⟨fun h => h (), fun h _ => h⟩

@[simp] theorem ensures_executeTemplate (page : Page) (Q : Trace → Rendered → Prop) :
    (executeTemplate page).Ensures Q ↔ ∀ r, Q [executed page r] r := Iff.rfl

@[simp] theorem ensures_doRequest (storageName : Bytes) (req : GatewayRequest)
    (Q : Trace → Except Bytes GatewayResponse → Prop) :
    (doRequest storageName req).Ensures Q ↔
      ∀ r, Q [asked storageName req r] r := Iff.rfl

@[simp] theorem ensures_now (Q : Trace → Int → Prop) :
    now.Ensures Q ↔ ∀ t, Q [clock t] t := Iff.rfl

@[simp] theorem ensures_randomBoundary (Q : Trace → Bytes → Prop) :
    randomBoundary.Ensures Q ↔ ∀ b, Q [drawn b] b := Iff.rfl

end FileSharing
