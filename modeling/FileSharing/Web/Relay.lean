import FileSharing.Web.OneResponse

/-!
What the client is told when the gateway fails. The handlers that answer with
JSON write the error of the reply and nothing else: the gateway's own error
where the reply carries one, an internal error in all other cases.
-/

namespace FileSharing
open Net Effects

/-- The error a reply carries: a 400 with an error object. -/
def Handler.Reports (h : Handler) (reply : Except Bytes GatewayResponse) (code : Int)
    (description : Bytes) : Prop :=
  ∃ rsp, reply = .ok rsp ∧ rsp.statusCode = 400 ∧
    h.lib.decodeError rsp.body = .ok (code, description)

/-- The client got one JSON error and no cookie. -/
structure JsonError (lib : Stdlib) (code : Int) (description : Bytes) (t : Trace) : Prop where
  once : ∃ err, errors t = [err]
  page : renderings t = []
  status : (response t).status = some 400
  header : (response t).sentHeader =
    [(str "Content-Type", str "application/json; charset=utf-8")]
  cookies : (response t).sentCookies = []
  body : (response t).body = lib.encodeError code description

/-- The client got the error of the reply. -/
def Relayed (h : Handler) (reply : Except Bytes GatewayResponse) (t : Trace) : Prop :=
  ∃ code description, JsonError h.lib code description t ∧
    (∀ c d, h.Reports reply c d → code = c ∧ description = d) ∧
    ((∀ c d, ¬h.Reports reply c d) → code = codeInternalError)

/-- The handlers that answer a gateway failure with JSON. -/
def HandlerName.answersJSON : HandlerName → Bool
  | .registerHandler | .loginHandler => false
  | .indexHTMLHandler | .viewHandler | .uploadHandler | .removeHandler | .getFileHandler
  | .shareTextHandler => true

/-- What a run that may ask the gateway comes to: nothing was asked, the gateway
failed and the error was told, or the gateway answered. -/
inductive Reported (h : Handler) (tells : HttpError → Trace → Prop) : Trace → Prop where
  | unasked {t : Trace} (ht : Silent t) : Reported h tells t
  | failed {pre es : Trace} {name : Bytes} {req : GatewayRequest}
      {reply : Except Bytes GatewayResponse} (hpre : Prepared pre) (hreply : ¬Accepted reply)
      (hes : tells (h.replyError reply) es) : Reported h tells (pre ++ asked name req reply :: es)
  | answered {t : Trace} {name : Bytes} {req : GatewayRequest} {rsp : GatewayResponse}
      (he : asked name req (.ok rsp) ∈ t) (status : rsp.statusCode = 200) : Reported h tells t

/-- The rule for a handler that tells every failure of an exchange in one way. -/
theorem reported_exchange {h : Handler} {tells : HttpError → Trace → Prop} {α : Type} {name : Bytes}
    {sent : GatewayRequest → Prop} {p : Act (Except HttpError GatewayResponse)}
    (hp : p.Ensures (Exchanged h name sent)) {f : Except HttpError GatewayResponse → Act α}
    (silent : ∀ err es, tells err es → Silent es)
    (bad : ∀ err, (f (.error err)).Ensures fun es _ => tells err es) :
    (p >>= f).Ensures fun t _ => Reported h tells t := by
  rw [Program.ensures_bind]
  refine hp.mono ?_
  intro es a ex
  cases ex with
  | unsent err hpre =>
      refine (bad err).mono ?_
      intro es' _ hes
      exact .unasked ((silent_append _ _).mpr ⟨silent_prepared hpre, silent err es' hes⟩)
  | refused hpre hreq hreply =>
      refine (bad _).mono ?_
      intro es' _ hes
      rw [List.append_assoc]
      exact .failed hpre hreply hes
  | accepted hpre hreq status hcookies =>
      rw [Program.ensures_iff_runs]
      intro es' _ _
      exact .answered (List.mem_append_left _ (List.mem_append_right _ List.mem_cons_self)) status

/-- How a run in which the gateway failed ends. -/
theorem Reported.failure {h : Handler} {tells : HttpError → Trace → Prop} {t : Trace}
    (reported : Reported h tells t) {sends : Bytes → GatewayRequest → Prop}
    (ledger : Ledger h sends t) {name : Bytes} {req : GatewayRequest}
    {reply : Except Bytes GatewayResponse} (he : asked name req reply ∈ t)
    (hreply : ¬Accepted reply) :
    ∃ pre name req es, Prepared pre ∧ tells (h.replyError reply) es ∧
      t = pre ++ asked name req reply :: es := by
  cases reported with
  | unasked ht => cases ht _ he
  | failed hpre hreply' hes =>
      have same := ledger.sole he (List.mem_append_right _ List.mem_cons_self)
      rw [same]
      exact ⟨_, _, _, _, hpre, hes, rfl⟩
  | answered he' status =>
      have same := ledger.sole he he'
      exact absurd ⟨_, same, status⟩ hreply

/-- The error written for a failed reply is the one the reply carries. -/
theorem replyError_reports (h : Handler) {reply : Except Bytes GatewayResponse}
    (hreply : ¬Accepted reply) :
    (∀ c d, h.Reports reply c d → (h.replyError reply).code = c ∧
      (h.replyError reply).description = d) ∧
    ((∀ c d, ¬h.Reports reply c d) → (h.replyError reply).code = codeInternalError) := by
  constructor
  · intro c d reports
    obtain ⟨rsp, rfl, status, decoded⟩ := reports
    simp [Handler.replyError, Handler.gatewayError, status, decoded]
  · intro silent
    cases reply with
    | error err => rfl
    | ok rsp =>
        rw [Handler.replyError, Handler.gatewayError]
        split
        · rename_i status
          cases decoded : h.lib.decodeError rsp.body with
          | error err => rfl
          | ok error => exact absurd ⟨rsp, rfl, status, decoded⟩ (silent error.1 error.2)
        · rfl

/-- An error written to a response without a status settles all of it but the
headers that were set before. -/
theorem errorEvents_step (lib : Stdlib) (err : HttpError) (handler : Bytes) {w : ResponseWriter}
    (unsent : w.status = none) :
    (errorEvents lib err handler).foldl ResponseWriter.step w =
      let header := (str "Content-Type", str "application/json; charset=utf-8") ::
        w.header.filter fun entry => entry.1 ≠ str "Content-Type"
      { header, cookies := w.cookies, status := some 400, sentHeader := header
        sentCookies := w.cookies, body := w.body ++ err.json lib } := by
  have key : canonicalHeaderKey (str "Content-Type") = str "Content-Type" := by decide
  simp [errorEvents, told, ResponseWriter.step, ResponseWriter.write, ResponseWriter.writeHeader,
    unsent, key]

/-- Events of which the response shows nothing. -/
structure Unseen (t : Trace) : Prop where
  writer : t.foldl ResponseWriter.step .fresh = .fresh
  errors : errors t = []
  renderings : renderings t = []

theorem unseen_prepared {pre : Trace} (hpre : Prepared pre) : Unseen pre := by
  cases hpre with
  | inl hpre =>
      rw [hpre]
      exact ⟨rfl, rfl, rfl⟩
  | inr hpre =>
      obtain ⟨b, rfl⟩ := hpre
      exact ⟨rfl, rfl, rfl⟩

theorem Unseen.asked {pre : Trace} (unseen : Unseen pre) (name : Bytes) (req : GatewayRequest)
    (reply : Except Bytes GatewayResponse) : Unseen (pre ++ [asked name req reply]) := by
  refine ⟨?_, ?_, ?_⟩
  · rw [List.foldl_append, unseen.writer]
    rfl
  · rw [errors_append, unseen.errors]
    rfl
  · rw [renderings_append, unseen.renderings]
    rfl

/-- An error is all the response shows if nothing was seen of it before. -/
theorem jsonError_unseen (lib : Stdlib) {pre : Trace} (unseen : Unseen pre) (err : HttpError)
    (handler : Bytes) :
    JsonError lib err.code err.description (pre ++ errorEvents lib err handler) := by
  have sent : response (pre ++ errorEvents lib err handler) =
      { header := [(str "Content-Type", str "application/json; charset=utf-8")], cookies := []
        status := some 400, sentCookies := [], body := err.json lib
        sentHeader := [(str "Content-Type", str "application/json; charset=utf-8")] } := by
    rw [response, List.foldl_append, unseen.writer, errorEvents_step lib err handler rfl]
    rfl
  refine ⟨⟨err, ?_⟩, ?_, ?_, ?_, ?_, ?_⟩
  · rw [errors_append, unseen.errors]
    rfl
  · rw [renderings_append, unseen.renderings]
    rfl
  all_goals rw [sent]
  rfl

/-- The error is written through Handler.Error. -/
def Writes (lib : Stdlib) (err : HttpError) (es : Trace) : Prop :=
  ∃ handler, es = errorEvents lib err handler

section Handlers
variable (h : Handler) (r : Request)

theorem writes_error (err : HttpError) (handler : Bytes) :
    (h.error err handler).Ensures fun es _ => Writes h.lib err es :=
  (ensures_error h _ _ _).mpr ⟨handler, rfl⟩

theorem silent_writes (err : HttpError) (es : Trace) (hes : Writes h.lib err es) : Silent es := by
  obtain ⟨handler, rfl⟩ := hes
  exact silent_errorEvents _ _ _

/-- Parameters that cannot be read are reported without a request. -/
theorem reported_refusal (err : HttpError) (handler : Bytes) :
    (h.error err handler).Ensures fun t _ => Reported h (Writes h.lib) t :=
  (ensures_error h _ _ _).mpr (.unasked (silent_errorEvents _ _ _))

theorem run_reported {name : HandlerName} (json : name.answersJSON = true) :
    (h.run name r).Ensures fun t _ => Reported h (Writes h.lib) t := by
  cases name with
  | registerHandler | loginHandler => cases json
  | indexHTMLHandler =>
      rw [Handler.run, Handler.indexHTMLHandler]
      cases requestParameters r with
      | error err => exact reported_refusal h _ _
      | ok sp =>
          exact reported_exchange (makeGetRequest_exchanged h r _ _ _) (silent_writes h) fun err =>
            writes_error h err _
  | viewHandler =>
      rw [Handler.run, Handler.viewHandler]
      cases requestParameters r with
      | error err => exact reported_refusal h _ _
      | ok sp =>
          exact reported_exchange (makeGetRequest_exchanged h r _ _ _) (silent_writes h) fun err =>
            writes_error h err _
  | getFileHandler =>
      rw [Handler.run, Handler.getFileHandler]
      cases requestParameters r with
      | error err => exact reported_refusal h _ _
      | ok sp =>
          exact reported_exchange (makeGetRequest_exchanged h r _ _ _) (silent_writes h) fun err =>
            writes_error h err _
  | uploadHandler =>
      rw [Handler.run, Handler.uploadHandler]
      cases requestParameters r with
      | error err => exact reported_refusal h _ _
      | ok sp =>
          exact reported_exchange (makeMultipartRequest_exchanged h r _ _) (silent_writes h)
            fun err => writes_error h err _
  | removeHandler =>
      rw [Handler.run, Handler.removeHandler]
      split
      · exact reported_refusal h _ _
      · cases requestParameters r with
        | error err => exact reported_refusal h _ _
        | ok sp =>
            exact reported_exchange (makePostRequest_exchanged h r _ _ _) (silent_writes h)
              fun err => writes_error h err _
  | shareTextHandler =>
      rw [Handler.run, Handler.shareTextHandler]
      simp only
      split
      · exact reported_refusal h _ _
      · cases requestParameters r with
        | error err => exact reported_refusal h _ _
        | ok sp =>
            exact reported_exchange (makePostRequest_exchanged h r _ _ _) (silent_writes h)
              fun err => writes_error h err _

/-- The client of a failed gateway request is told its error and nothing else. -/
theorem failure_relayed (name : HandlerName) (json : name.answersJSON = true) :
    (h.run name r).Ensures fun t _ => ∀ storage req reply, asked storage req reply ∈ t →
      ¬Accepted reply → Relayed h reply t := by
  refine ((run_reported h r json).and (run_ledger h r name)).mono ?_
  intro t _ run storage req reply he hreply
  obtain ⟨pre, name', req', es, hpre, hes, rfl⟩ := run.1.failure run.2 he hreply
  obtain ⟨handler, rfl⟩ := hes
  have told := jsonError_unseen h.lib ((unseen_prepared hpre).asked name' req' reply)
    (h.replyError reply) handler
  rw [List.append_assoc] at told
  exact ⟨_, _, told, replyError_reports h hreply⟩

end Handlers

/-- A listing that is refused with a body that is no error object. -/
theorem failure_relayed_view :
    let r : Request :=
      { method := str "GET", url := ⟨str "/a/", []⟩, cookies := [], form := []
        multipart := .error [], ctx := [] }
    let reply : Except Bytes GatewayResponse := .ok ⟨400, [], ⟨0, [], none⟩⟩
    Relayed .plain reply
      (asked [] (Handler.plain.getRequest r [] (str "list") [(str "storage", []), (str "file", [])])
          reply ::
        errorEvents .plain ⟨codeInternalError, str "json decode", some (str "EOF")⟩
          (str "ViewHandler")) := by
  intro r reply
  have run := failure_relayed .plain r .viewHandler rfl reply () () () ()
  exact run _ _ _ List.mem_cons_self (not_accepted_ok (by decide))

end FileSharing
