import FileSharing.Web.Handler

/-!
handlers.go: the upload body. The parts of the browser's form are read one at a
time and the ones with a file name are written again under a fresh boundary.
-/

namespace FileSharing
open Net Effects

/-- A form file, as CreateFormFile and io.Copy hand it to the multipart writer. -/
structure FormFile where
  fieldName : Bytes
  fileName : Bytes
  content : Bytes
deriving DecidableEq

def crlf : Bytes := [0x0D, 0x0A]

/-- multipart.escapeQuotes. -/
def escapeQuotes (s : Bytes) : Bytes :=
  s.flatMap fun c => if c = 0x5C ∨ c = 0x22 then [0x5C, c] else [c]

def FormFile.disposition (f : FormFile) : Bytes :=
  str "form-data; name=\"" ++ escapeQuotes f.fieldName ++ str "\"; filename=\"" ++
    escapeQuotes f.fileName ++ str "\""

/-- The bytes of one part; a part after the first closes the one before it. -/
def FormFile.bytes (boundary : Bytes) (first : Bool) (f : FormFile) : Bytes :=
  (if first then [] else crlf) ++ str "--" ++ boundary ++ crlf ++
    str "Content-Disposition: " ++ f.disposition ++ crlf ++
    str "Content-Type: application/octet-stream" ++ crlf ++ crlf ++ f.content

/-- What multipart.Writer has written after Close. -/
def writeMultipart (boundary : Bytes) : List FormFile → Bytes
  | [] => crlf ++ str "--" ++ boundary ++ str "--" ++ crlf
  | f :: files =>
    f.bytes boundary true ++ files.flatMap (·.bytes boundary false) ++
      crlf ++ str "--" ++ boundary ++ str "--" ++ crlf

/-- The loop over NextPart: the form files to write, or the first failure. -/
def copyParts : PartStream → Except Bytes (List FormFile)
  | .eof none => .ok []
  | .eof (some err) => .error (str "close: " ++ err)
  | .failed err => .error (str "next part: " ++ err)
  | .part p rest =>
    if p.fileName = [] then copyParts rest
    else
      match p.createErr, p.copyErr with
      | some err, _ => .error (str "create form file: " ++ err)
      | none, some err => .error (str "copy data: " ++ err)
      | none, none => (⟨p.fileName, p.fileName, p.content⟩ :: ·) <$> copyParts rest

/-- The body and its content type. -/
def multipartBody (originReq : Request) : Act (Except Bytes (Bytes × Bytes)) :=
  match originReq.multipart with
  | .error err => pure (.error (str "multipart reader: " ++ err))
  | .ok stream => do
    let boundary ← randomBoundary
    pure (copyParts stream >>= fun files =>
      .ok (writeMultipart boundary files, str "multipart/form-data; boundary=" ++ boundary))

def Handler.makeMultipartRequest (h : Handler) (originReq : Request)
    (storageName endpoint : Bytes) : Act (Except HttpError GatewayResponse) := do
  match ← multipartBody originReq with
  | .error err => pure (.error ((HttpError.newInternalError (str "make body")).withError err))
  | .ok (body, contentType) =>
    match h.lib.newRequestErr (h.makeURL endpoint) with
    | some err =>
      pure (.error ((HttpError.newInternalError (str "make post request")).withError err))
    | none =>
      h.processRequest
        { method := str "POST"
          url := h.makeURL endpoint
          rawQuery := []
          body := body
          contentType := some contentType
          authorization := Handler.authorization originReq storageName }
        storageName

end FileSharing
