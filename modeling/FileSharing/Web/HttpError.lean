import FileSharing.Web.Message

/-!
The vendored packages `httperror` and `ctxinfo`: error values with their codes,
and the typed accessors of the request context.
-/

namespace FileSharing
open Net

def codeInternalError : Int := 1
def codeInvalidParams : Int := 2
def codeUnauthorized : Int := 3
def codeAlreadyExist : Int := 4
def codeNotExist : Int := 5
def codeNotMatch : Int := 6

namespace HttpError

def new (code : Int) (description : Bytes) : HttpError := ⟨code, description, none⟩

def newInternalError (description : Bytes) : HttpError := new codeInternalError description
def newInvalidParams (description : Bytes) : HttpError := new codeInvalidParams description

/-- WithError also rewrites the description of an invalid-parameters error. -/
def withError (e : HttpError) (err : Bytes) : HttpError :=
  { e with
    err := some err
    description :=
      if e.code = codeInvalidParams then e.description ++ str ": " ++ err else e.description }

end HttpError

namespace Ctxinfo

def contextUserName : Key := .info (str "contextUserName")
def contextPermanentStorage : Key := .info (str "contextPermanentStorage")
def contextFileName : Key := .info (str "contextFileName")
def contextPublicStorage : Key := .info (str "contextPublicStorage")

inductive Err where
  | notFound
  | wrongType (text : Bytes)
deriving DecidableEq

def getString (ctx : Context) (key : Key) (text : Bytes) : Except Err Bytes :=
  match ctx.value key with
  | none => .error .notFound
  | some (.string s) => .ok s
  | some _ => .error (.wrongType text)

def getBool (ctx : Context) (key : Key) (text : Bytes) : Except Err Bool :=
  match ctx.value key with
  | none => .error .notFound
  | some (.bool b) => .ok b
  | some _ => .error (.wrongType text)

def withUserName (ctx : Context) (name : Bytes) : Context :=
  ctx.withValue contextUserName (.string name)

def userName (ctx : Context) : Except Err Bytes :=
  getString ctx contextUserName (str "user name is not string")

def withPermanentStorage (ctx : Context) (permanent : Bool) : Context :=
  ctx.withValue contextPermanentStorage (.bool permanent)

def permanentStorage (ctx : Context) : Except Err Bool :=
  getBool ctx contextPermanentStorage (str "permanent storage is not bool")

def withFileName (ctx : Context) (fileName : Bytes) : Context :=
  ctx.withValue contextFileName (.string fileName)

def fileName (ctx : Context) : Except Err Bytes :=
  getString ctx contextFileName (str "file name is not string")

def withPublicStorage (ctx : Context) (isPublic : Bool) : Context :=
  ctx.withValue contextPublicStorage (.bool isPublic)

def publicStorage (ctx : Context) : Except Err Bool :=
  getBool ctx contextPublicStorage (str "public storage is not bool")

end Ctxinfo
end FileSharing
