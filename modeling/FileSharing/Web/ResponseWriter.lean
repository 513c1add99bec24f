import FileSharing.Web.Message

/-!
The http.ResponseWriter as the net/http server keeps it: headers may change
until the status is written, a first write without a status writes 200, and a
second status is ignored.
-/

namespace FileSharing
open Net Effects

/-- textproto.CanonicalMIMEHeaderKey: a capital at the start and after each hyphen. -/
def canonicalHeaderKey (key : Bytes) : Bytes :=
  (key.foldl (fun (out, upper) c =>
    (out ++ [if upper ∧ isLower c then c - 0x20 else if ¬upper ∧ isUpper c then c + 0x20 else c],
      c = 0x2D)) ([], true)).1

structure ResponseWriter where
  header : List (Bytes × Bytes)
  cookies : List Cookie
  status : Option Nat
  sentHeader : List (Bytes × Bytes)
  sentCookies : List Cookie
  body : Bytes
deriving DecidableEq

namespace ResponseWriter

def fresh : ResponseWriter := ⟨[], [], none, [], [], []⟩

def writeHeader (w : ResponseWriter) (code : Nat) : ResponseWriter :=
  match w.status with
  | some _ => w
  | none => { w with status := some code, sentHeader := w.header, sentCookies := w.cookies }

def write (w : ResponseWriter) (data : Bytes) : ResponseWriter :=
  { w.writeHeader 200 with body := w.body ++ data }

def step (w : ResponseWriter) : Event world → ResponseWriter
  | ⟨.tell (.setHeader key value), _⟩ =>
    let key := canonicalHeaderKey key
    { w with header := (key, value) :: w.header.filter fun entry => entry.1 ≠ key }
  | ⟨.tell (.addCookie c), _⟩ => { w with cookies := w.cookies ++ [c] }
  | ⟨.tell (.writeHeader code), _⟩ => w.writeHeader code
  | ⟨.tell (.write data), _⟩ => w.write data
  | ⟨.executeTemplate _, (r : Rendered)⟩ => if r.written = [] then w else w.write r.written
  | _ => w

/-- What the client has received once the handler has returned. -/
def finish (w : ResponseWriter) : ResponseWriter := w.writeHeader 200

end ResponseWriter

/-- The response a sequence of operations produces. -/
def response (t : Trace) : ResponseWriter := (t.foldl ResponseWriter.step .fresh).finish

end FileSharing
