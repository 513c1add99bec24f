import FileSharing.Web.Handlers

/-!
One rule for each helper of the handlers: the events it leaves and its result.
The rules for the three ways of making a gateway request share one conclusion,
`Exchanged`, which lists all that a gateway exchange can come to.
-/

namespace FileSharing
open Net Effects

def errorEvents (lib : Stdlib) (err : HttpError) (handler : Bytes) : Trace :=
  [told (.logHandlerError handler err),
    told (.setHeader (str "Content-Type") (str "application/json; charset=utf-8")),
    told (.writeHeader 400), told (.write (err.json lib))]

def CookieSession.cookie (cs : CookieSession) (token name : Bytes) (now : Int) : Cookie :=
  { name, value := sanitizeCookieValue token, path := str "/"
    expires := now + cs.period.toInt, httpOnly := true }

def CookieSession.tokenEvents (cs : CookieSession) (token name : Bytes) (now : Int) : Trace :=
  clock now :: if isToken name then [told (.addCookie (cs.cookie token name now))] else []

def redirectEvents (lib : Stdlib) (r : Request) (url : Bytes) (code : Nat) : Trace :=
  let url := redirectURL (lib.parseURL url) r.url.path url
  told (.setHeader (str "Location") (hexEscapeNonASCII url)) ::
    ((if r.method = str "GET" ∨ r.method = str "HEAD" then
      [told (.setHeader (str "Content-Type") (str "text/html; charset=utf-8"))] else []) ++
    told (.writeHeader code) ::
    if r.method = str "GET" then
      [told (.write (str "<a href=\"" ++ htmlEscape url ++ str "\">" ++ statusText code ++
        str "</a>.\n\n"))]
    else [])

def copyEvents (body : Body) : Trace :=
  if body.data ≠ [] then [told (.write body.data)] else []

def renderEvents (page : Page) (rendered : Rendered) : Trace :=
  executed page rendered ::
    match rendered.err with
    | some err => [told (.logError err)]
    | none => []

section Rules
variable (h : Handler) (Q : Trace → Unit → Prop)

@[simp] theorem ensures_error (err : HttpError) (handler : Bytes) :
    (h.error err handler).Ensures Q ↔ Q (errorEvents h.lib err handler) () := by
  simp [Handler.error, HttpError.writeJSON, errorEvents]

@[simp] theorem ensures_setToken (cs : CookieSession) (token name : Bytes) :
    (cs.setToken token name).Ensures Q ↔ ∀ now, Q (cs.tokenEvents token name now) () := by
  cases ht : isToken name <;>
    simp [CookieSession.setToken, httpSetCookie, CookieSession.tokenEvents, CookieSession.cookie, ht]

@[simp] theorem ensures_httpRedirect (lib : Stdlib) (r : Request) (url : Bytes) (code : Nat) :
    (httpRedirect lib r url code).Ensures Q ↔ Q (redirectEvents lib r url code) () := by
  have distinct : str "HEAD" ≠ str "GET" := by decide
  by_cases hg : r.method = str "GET" <;> by_cases hh : r.method = str "HEAD" <;>
    simp [httpRedirect, redirectEvents, hg, hh, distinct]

@[simp] theorem ensures_ioCopy (body : Body) (R : Trace → Option Bytes → Prop) :
    (ioCopy body).Ensures R ↔ R (copyEvents body) body.err := by
  by_cases hd : body.data = [] <;> simp [ioCopy, copyEvents, hd]

@[simp] theorem ensures_deferClose {α : Type} (rsp : GatewayResponse) (rest : Act α)
    (R : Trace → α → Prop) :
    (deferClose rsp rest).Ensures R ↔
      rest.Ensures fun es a => R (es ++ [told (.closeBody rsp.body.id)]) a := by
  simp [deferClose]

@[simp] theorem ensures_renderPage (page : Page) :
    (renderPage page).Ensures Q ↔ ∀ rendered, Q (renderEvents page rendered) () := by
  simp only [renderPage, Program.ensures_bind, ensures_executeTemplate]
  apply forall_congr'
  intro rendered
  cases he : rendered.err <;> simp [renderEvents, he]

/-- A token that cannot be read is an error, any other is stored and redirected
with. -/
theorem ensures_redirectWithToken (r : Request) (rsp : GatewayResponse) (name handler : Bytes)
    (R : Trace → Bool → Prop) :
    (h.redirectWithToken r rsp name handler).Ensures R ↔
      match rsp.body.err with
      | some err =>
        R (errorEvents h.lib
            ((HttpError.newInternalError (str "invalid session token")).withError err) handler ++
          [told (.closeBody rsp.body.id)]) true
      | none => ∀ now,
        R (h.session.tokenEvents rsp.body.data name now ++
          redirectEvents h.lib r (slash :: name) 302 ++ [told (.closeBody rsp.body.id)]) false := by
  rw [Handler.redirectWithToken, ensures_deferClose]
  cases hb : rsp.body.err <;> simp [readAll, hb]

end Rules

/-- The events before a request is sent: an upload draws its boundary. -/
def Prepared (t : Trace) : Prop := t = [] ∨ ∃ b, t = [drawn b]

/-- The events by which a 200 reply refreshes the session. -/
def Refreshed (cs : CookieSession) (rsp : GatewayResponse) (name : Bytes) (t : Trace) : Prop :=
  if rsp.xToken = [] then t = [] else ∃ now, t = cs.tokenEvents rsp.xToken name now

section Shown
variable {β : Type} {f : Event world → Option β}

theorem filterMap_prepared (drawing : ∀ b, f (drawn b) = none) {t : Trace} (ht : Prepared t) :
    t.filterMap f = [] := by
  cases ht with
  | inl ht => rw [ht, List.filterMap_nil]
  | inr ht =>
      obtain ⟨b, rfl⟩ := ht
      rw [List.filterMap_cons_none (drawing b), List.filterMap_nil]

/-- A token shows in its cookie only. -/
theorem filterMap_tokenEvents (reading : ∀ now, f (clock now) = none)
    (setting : ∀ c, f (told (.addCookie c)) = none) (cs : CookieSession) (token name : Bytes)
    (now : Int) : (cs.tokenEvents token name now).filterMap f = [] := by
  rw [CookieSession.tokenEvents, List.filterMap_cons_none (reading now)]
  split
  · rw [List.filterMap_cons_none (setting _), List.filterMap_nil]
  · rfl

theorem filterMap_refreshed (reading : ∀ now, f (clock now) = none)
    (setting : ∀ c, f (told (.addCookie c)) = none) {cs : CookieSession} {rsp : GatewayResponse}
    {name : Bytes} {t : Trace} (ht : Refreshed cs rsp name t) : t.filterMap f = [] := by
  rw [Refreshed] at ht
  split at ht
  · rw [ht, List.filterMap_nil]
  · obtain ⟨now, rfl⟩ := ht
    exact filterMap_tokenEvents reading setting cs _ _ now

end Shown

/-- The error of a reply that is no usable response. -/
def Handler.replyError (h : Handler) : Except Bytes GatewayResponse → HttpError
  | .error err => (HttpError.newInternalError (str "do request")).withError err
  | .ok rsp => h.gatewayError rsp

def Accepted (reply : Except Bytes GatewayResponse) : Prop :=
  ∃ rsp, reply = .ok rsp ∧ rsp.statusCode = 200

inductive Exchanged (h : Handler) (name : Bytes) (sent : GatewayRequest → Prop) :
    Trace → Except HttpError GatewayResponse → Prop where
  | unsent {pre : Trace} (err : HttpError) (hpre : Prepared pre) :
      Exchanged h name sent pre (.error err)
  | refused {pre : Trace} {req : GatewayRequest} {reply : Except Bytes GatewayResponse}
      (hpre : Prepared pre) (hreq : sent req) (hreply : ¬Accepted reply) :
      Exchanged h name sent (pre ++ [asked name req reply]) (.error (h.replyError reply))
  | accepted {pre cookies : Trace} {req : GatewayRequest} {rsp : GatewayResponse}
      (hpre : Prepared pre) (hreq : sent req) (status : rsp.statusCode = 200)
      (hcookies : Refreshed h.session rsp name cookies) :
      Exchanged h name sent (pre ++ asked name req (.ok rsp) :: cookies) (.ok rsp)

theorem not_accepted_error (err : Bytes) : ¬Accepted (.error err) := by
  intro h
  obtain ⟨rsp, hr, -⟩ := h
  cases hr

theorem not_accepted_ok {rsp : GatewayResponse} (hs : rsp.statusCode ≠ 200) :
    ¬Accepted (.ok rsp) := by
  intro h
  obtain ⟨rsp', hr, hs'⟩ := h
  cases hr
  exact hs hs'

/-- A request is sent and its reply judged. -/
theorem ensures_processRequest (h : Handler) (req : GatewayRequest) (name : Bytes)
    (Q : Trace → Except HttpError GatewayResponse → Prop) :
    (h.processRequest req name).Ensures Q ↔ ∀ reply : Except Bytes GatewayResponse,
      match reply with
      | .error err => Q [asked name req (.error err)] (.error (h.replyError (.error err)))
      | .ok rsp =>
        if rsp.statusCode ≠ 200 then Q [asked name req (.ok rsp)] (.error (h.gatewayError rsp))
        else if rsp.xToken ≠ [] then ∀ now,
          Q (asked name req (.ok rsp) :: h.session.tokenEvents rsp.xToken name now) (.ok rsp)
        else Q [asked name req (.ok rsp)] (.ok rsp) := by
  simp only [Handler.processRequest, Program.ensures_bind, ensures_doRequest]
  apply forall_congr'
  intro reply
  cases reply with
  | error err => rfl
  | ok rsp =>
      by_cases status : rsp.statusCode = 200 <;> by_cases token : rsp.xToken = [] <;>
        simp [status, token]

theorem processRequest_exchanged (h : Handler) (sent : GatewayRequest → Prop)
    {req : GatewayRequest} (hreq : sent req) {pre : Trace} (hpre : Prepared pre) (name : Bytes) :
    (h.processRequest req name).Ensures fun es a => Exchanged h name sent (pre ++ es) a := by
  rw [ensures_processRequest]
  intro reply
  cases reply with
  | error err => exact .refused hpre hreq (not_accepted_error err)
  | ok rsp =>
      by_cases hs : rsp.statusCode = 200
      · by_cases ht : rsp.xToken = []
        · have none : Refreshed h.session rsp name [] := by simp [Refreshed, ht]
          simpa [hs, ht] using Exchanged.accepted hpre hreq hs none
        · simp only [hs, ht, ne_eq, not_true_eq_false, if_false, not_false_eq_true, if_true]
          intro now
          have refreshed : Refreshed h.session rsp name
              (h.session.tokenEvents rsp.xToken name now) := by
            simp [Refreshed, ht]
          exact .accepted hpre hreq hs refreshed
      · simpa [hs, Handler.replyError] using Exchanged.refused hpre hreq (not_accepted_ok hs)

def Handler.getRequest (h : Handler) (r : Request) (name endpoint : Bytes) (values : Values) :
    GatewayRequest :=
  { method := str "GET", url := h.makeURL endpoint, rawQuery := values.encode, body := []
    contentType := none, authorization := Handler.authorization r name }

def Handler.postRequest (h : Handler) (r : Request) (name endpoint : Bytes) (values : Values) :
    GatewayRequest :=
  { method := str "POST", url := h.makeURL endpoint, rawQuery := [], body := values.encode
    contentType := some (str "application/x-www-form-urlencoded")
    authorization := Handler.authorization r name }

def Handler.uploadRequest (h : Handler) (r : Request) (name endpoint boundary : Bytes)
    (files : List FormFile) : GatewayRequest :=
  { method := str "POST", url := h.makeURL endpoint, rawQuery := []
    body := writeMultipart boundary files
    contentType := some (str "multipart/form-data; boundary=" ++ boundary)
    authorization := Handler.authorization r name }

theorem makeGetRequest_exchanged (h : Handler) (r : Request) (name endpoint : Bytes)
    (values : Values) :
    (h.makeGetRequest r name endpoint values).Ensures
      (Exchanged h name (· = h.getRequest r name endpoint values)) := by
  unfold Handler.makeGetRequest
  cases h.lib.newRequestErr (h.makeURL endpoint) with
  | some err => exact .unsent _ (.inl rfl)
  | none =>
      exact processRequest_exchanged h (· = h.getRequest r name endpoint values) rfl (.inl rfl) name

theorem makePostRequest_exchanged (h : Handler) (r : Request) (name endpoint : Bytes)
    (values : Values) :
    (h.makePostRequest r name endpoint values).Ensures
      (Exchanged h name (· = h.postRequest r name endpoint values)) := by
  unfold Handler.makePostRequest
  cases h.lib.newRequestErr (h.makeURL endpoint) with
  | some err => exact .unsent _ (.inl rfl)
  | none =>
      exact processRequest_exchanged h (· = h.postRequest r name endpoint values) rfl (.inl rfl) name

/-- The steps of an upload: the form, the boundary, its parts, the URL. -/
theorem ensures_makeMultipartRequest (h : Handler) (r : Request) (name endpoint : Bytes)
    (Q : Trace → Except HttpError GatewayResponse → Prop) :
    (h.makeMultipartRequest r name endpoint).Ensures Q ↔
      match r.multipart with
      | .error err =>
        Q [] (.error ((HttpError.newInternalError (str "make body")).withError
          (str "multipart reader: " ++ err)))
      | .ok stream => ∀ boundary,
        match copyParts stream with
        | .error err =>
          Q [drawn boundary]
            (.error ((HttpError.newInternalError (str "make body")).withError err))
        | .ok files =>
          match h.lib.newRequestErr (h.makeURL endpoint) with
          | some err =>
            Q [drawn boundary]
              (.error ((HttpError.newInternalError (str "make post request")).withError err))
          | none =>
            (h.processRequest (h.uploadRequest r name endpoint boundary files) name).Ensures
              fun es a => Q (drawn boundary :: es) a := by
  rw [Handler.makeMultipartRequest, multipartBody]
  cases r.multipart with
  | error err => rfl
  | ok stream =>
      simp only [Program.ensures_bind, ensures_randomBoundary]
      apply forall_congr'
      intro boundary
      cases copyParts stream with
      | error err => rfl
      | ok files =>
          cases h.lib.newRequestErr (h.makeURL endpoint) with
          | some err => simp [bind, Except.bind]
          | none => simp [bind, Except.bind, Handler.uploadRequest]

/-- An upload is sent only when every part could be read and written. -/
theorem makeMultipartRequest_exchanged (h : Handler) (r : Request) (name endpoint : Bytes) :
    (h.makeMultipartRequest r name endpoint).Ensures
      (Exchanged h name fun req => ∃ stream files boundary, r.multipart = .ok stream ∧
        copyParts stream = .ok files ∧ req = h.uploadRequest r name endpoint boundary files) := by
  rw [ensures_makeMultipartRequest]
  cases hm : r.multipart with
  | error err => exact .unsent _ (.inl rfl)
  | ok stream =>
      intro boundary
      cases hc : copyParts stream with
      | error err => exact .unsent _ (.inr ⟨boundary, rfl⟩)
      | ok files =>
          cases h.lib.newRequestErr (h.makeURL endpoint) with
          | some err => exact .unsent _ (.inr ⟨boundary, rfl⟩)
          | none =>
              exact processRequest_exchanged h _ ⟨stream, files, boundary, rfl, hc, rfl⟩
                (.inr ⟨boundary, rfl⟩) name

end FileSharing
