import FileSharing.Web.Bodies

/-!
What the client receives from a complete run. A response is one of a kind when
it is a single JSON error with its status, or a single complete page, file or
empty body; the conditions under which each handler achieves that are exact.
-/

namespace FileSharing
open Net Effects

@[simp] def Command.output : Command → Bytes
  | .write data => data
  | _ => []

/-- The status a command would give a response that has none. -/
@[simp] def Command.status? : Command → Option Nat
  | .writeHeader code => some code
  | .write _ => some 200
  | _ => none

@[simp] def Command.handlerError? : Command → Option HttpError
  | .logHandlerError _ err => some err
  | _ => none

/-- The bytes an event adds to the response body. -/
def output : Event world → Bytes
  | ⟨.tell c, _⟩ => c.output
  | ⟨.executeTemplate _, (r : Rendered)⟩ => r.written
  | _ => []

def statusOf : Event world → Option Nat
  | ⟨.tell c, _⟩ => c.status?
  | ⟨.executeTemplate _, (r : Rendered)⟩ => if r.written = [] then none else some 200
  | _ => none

/-- The errors written through Handler.Error. -/
def errors (t : Trace) : List HttpError :=
  t.filterMap fun
    | ⟨.tell c, _⟩ => c.handlerError?
    | _ => none

def renderings (t : Trace) : List Rendered :=
  t.filterMap fun
    | ⟨.executeTemplate _, (r : Rendered)⟩ => some r
    | _ => none

theorem step_body (w : ResponseWriter) (e : Event world) :
    (w.step e).body = w.body ++ output e := by
  have head : ∀ code, (w.writeHeader code).body = w.body := by
    intro code
    unfold ResponseWriter.writeHeader
    split <;> rfl
  cases e with
  | mk op reply =>
      cases op with
      | tell c => cases c <;> simp [ResponseWriter.step, output, ResponseWriter.write, head]
      | executeTemplate page =>
          by_cases hw : (reply : Rendered).written = [] <;>
            simp [ResponseWriter.step, output, ResponseWriter.write, hw]
      | doRequest | now | randomBoundary => simp [ResponseWriter.step, output]

theorem step_status (w : ResponseWriter) (e : Event world) :
    (w.step e).status = w.status.or (statusOf e) := by
  have head : ∀ code, (w.writeHeader code).status = w.status.or (some code) := by
    intro code
    cases hs : w.status <;> simp [ResponseWriter.writeHeader, hs]
  cases e with
  | mk op reply =>
      cases op with
      | tell c => cases c <;> simp [ResponseWriter.step, statusOf, ResponseWriter.write, head]
      | executeTemplate page =>
          by_cases hw : (reply : Rendered).written = [] <;>
            simp [ResponseWriter.step, statusOf, ResponseWriter.write, head, hw]
      | doRequest | now | randomBoundary => simp [ResponseWriter.step, statusOf]

theorem response_body (t : Trace) : (response t).body = t.flatMap output := by
  have fold : ∀ w : ResponseWriter,
      (t.foldl ResponseWriter.step w).body = w.body ++ t.flatMap output := by
    induction t with
    | nil => simp
    | cons e t ih =>
        intro w
        rw [List.foldl_cons, ih, step_body, List.append_assoc, List.flatMap_cons]
  have finish : ∀ w : ResponseWriter, w.finish.body = w.body := by
    intro w
    cases hs : w.status <;> simp [ResponseWriter.finish, ResponseWriter.writeHeader, hs]
  rw [response, finish, fold]
  rfl

theorem foldl_status (t : Trace) (w : ResponseWriter) :
    (t.foldl ResponseWriter.step w).status = w.status.or (t.findSome? statusOf) := by
  induction t generalizing w with
  | nil => simp
  | cons e t ih =>
      rw [List.foldl_cons, ih, step_status, List.findSome?_cons, Option.or_assoc]
      cases statusOf e <;> rfl

theorem response_status (t : Trace) :
    (response t).status = some ((t.findSome? statusOf).getD 200) := by
  have finish : ∀ w : ResponseWriter, w.finish.status = some (w.status.getD 200) := by
    intro w
    cases hs : w.status <;> simp [ResponseWriter.finish, ResponseWriter.writeHeader, hs]
  rw [response, finish, foldl_status]
  rfl

/-- A page that was rendered to its end, a file that was read to its end, or
nothing at all. -/
def Whole (t : Trace) : Prop :=
  (∃ page, renderings t = [page] ∧ page.err = none ∧ (response t).body = page.written) ∨
  renderings t = [] ∧
    ((response t).body = [] ∨
      ∃ rsp ∈ fetched t, rsp.statusCode = 200 ∧ rsp.body.err = none ∧
        (response t).body = rsp.body.data)

/-- The client gets one error, or else one whole success body. -/
def OneResponse (lib : Stdlib) (t : Trace) : Prop :=
  (∃ err, errors t = [err] ∧ (response t).status = some 400 ∧ (response t).body = err.json lib) ∨
  errors t = [] ∧ ((response t).status = some 200 ∨ (response t).status = some 302) ∧ Whole t

/-- Events that leave the response as it is and report nothing. -/
def mute : Event world → Bool
  | ⟨.tell (.write _), _⟩ => false
  | ⟨.tell (.writeHeader _), _⟩ => false
  | ⟨.tell (.logHandlerError _ _), _⟩ => false
  | ⟨.executeTemplate _, _⟩ => false
  | _ => true

def Mute (t : Trace) : Prop := ∀ e ∈ t, mute e

theorem mute_event {e : Event world} (he : mute e) :
    output e = [] ∧ statusOf e = none ∧ errors [e] = [] ∧ renderings [e] = [] := by
  cases e with
  | mk op reply =>
      cases op with
      | tell c =>
          cases c with
          | write data => cases he
          | writeHeader code => cases he
          | logHandlerError handler err => cases he
          | _ => exact ⟨rfl, rfl, rfl, rfl⟩
      | executeTemplate page => cases he
      | doRequest name req => exact ⟨rfl, rfl, rfl, rfl⟩
      | now => exact ⟨rfl, rfl, rfl, rfl⟩
      | randomBoundary => exact ⟨rfl, rfl, rfl, rfl⟩

section Accounts
variable (t t' : Trace) (lib : Stdlib) (err : HttpError) (handler : Bytes)

@[simp] theorem errors_nil : errors [] = [] := rfl
@[simp] theorem renderings_nil : renderings [] = [] := rfl

@[simp] theorem errors_append : errors (t ++ t') = errors t ++ errors t' := List.filterMap_append

@[simp] theorem renderings_append : renderings (t ++ t') = renderings t ++ renderings t' :=
  List.filterMap_append

@[simp] theorem errors_told (c : Command) :
    errors (told c :: t) = c.handlerError?.toList ++ errors t := by
  cases c <;> rfl

@[simp] theorem renderings_told (c : Command) : renderings (told c :: t) = renderings t := rfl
@[simp] theorem output_told (c : Command) : output (told c) = c.output := rfl
@[simp] theorem statusOf_told (c : Command) : statusOf (told c) = c.status? := rfl

@[simp] theorem errors_executed (page : Page) (rendered : Rendered) :
    errors (executed page rendered :: t) = errors t := rfl

@[simp] theorem renderings_executed (page : Page) (rendered : Rendered) :
    renderings (executed page rendered :: t) = rendered :: renderings t := rfl

@[simp] theorem output_executed (page : Page) (rendered : Rendered) :
    output (executed page rendered) = rendered.written := rfl

@[simp] theorem statusOf_executed (page : Page) (rendered : Rendered) :
    statusOf (executed page rendered) = if rendered.written = [] then none else some 200 := rfl

@[simp] theorem errors_errorEvents : errors (errorEvents lib err handler) = [err] := rfl
@[simp] theorem renderings_errorEvents : renderings (errorEvents lib err handler) = [] := rfl
@[simp] theorem fetched_errorEvents : fetched (errorEvents lib err handler) = [] := rfl

@[simp] theorem output_errorEvents :
    (errorEvents lib err handler).flatMap output = err.json lib :=
  List.append_nil _

@[simp] theorem statusOf_errorEvents :
    (errorEvents lib err handler).findSome? statusOf = some 400 := rfl

@[simp] theorem errors_copyEvents (body : Body) : errors (copyEvents body) = [] := by
  unfold copyEvents
  split <;> rfl

@[simp] theorem renderings_copyEvents (body : Body) : renderings (copyEvents body) = [] := by
  unfold copyEvents
  split <;> rfl

@[simp] theorem fetched_copyEvents (body : Body) : fetched (copyEvents body) = [] := by
  unfold copyEvents
  split <;> rfl

@[simp] theorem output_copyEvents (body : Body) :
    (copyEvents body).flatMap output = body.data := by
  by_cases hd : body.data = [] <;> simp [copyEvents, hd, told, output]

@[simp] theorem statusOf_copyEvents (body : Body) :
    (copyEvents body).findSome? statusOf = if body.data = [] then none else some 200 := by
  by_cases hd : body.data = [] <;> simp [copyEvents, hd, told, statusOf]

@[simp] theorem errors_renderEvents (page : Page) (rendered : Rendered) :
    errors (renderEvents page rendered) = [] := by
  cases he : rendered.err <;> simp [renderEvents, he]

@[simp] theorem renderings_renderEvents (page : Page) (rendered : Rendered) :
    renderings (renderEvents page rendered) = [rendered] := by
  cases he : rendered.err <;> simp [renderEvents, he]

@[simp] theorem fetched_renderEvents (page : Page) (rendered : Rendered) :
    fetched (renderEvents page rendered) = [] := by
  cases he : rendered.err <;> simp [renderEvents, he]

@[simp] theorem output_renderEvents (page : Page) (rendered : Rendered) :
    (renderEvents page rendered).flatMap output = rendered.written := by
  cases he : rendered.err <;> simp [renderEvents, he]

@[simp] theorem statusOf_renderEvents (page : Page) (rendered : Rendered) :
    (renderEvents page rendered).findSome? statusOf =
      if rendered.written = [] then none else some 200 := by
  by_cases hw : rendered.written = [] <;> cases he : rendered.err <;>
    simp [renderEvents, he, hw]

end Accounts

theorem Mute.silence {t : Trace} (ht : Mute t) :
    t.flatMap output = [] ∧ t.findSome? statusOf = none ∧ errors t = [] ∧ renderings t = [] := by
  induction t with
  | nil => exact ⟨rfl, rfl, rfl, rfl⟩
  | cons e t ih =>
      obtain ⟨body, status, errs, pages⟩ := mute_event (ht e List.mem_cons_self)
      obtain ⟨bodies, statuses, errss, pagess⟩ := ih fun e' he' => ht e' (List.mem_cons_of_mem _ he')
      rw [← List.singleton_append, errors_append, renderings_append]
      simp [body, status, errs, pages, bodies, statuses, errss, pagess]

theorem mute_tokenEvents (cs : CookieSession) (token name : Bytes) (now : Int) :
    Mute (cs.tokenEvents token name now) ∧ fetched (cs.tokenEvents token name now) = [] := by
  refine ⟨?_, filterMap_tokenEvents (fun _ => rfl) (fun _ => rfl) cs token name now⟩
  cases ht : isToken name <;> simp [CookieSession.tokenEvents, ht, Mute, told, clock, mute]

/-- The rule for a handler with an exchange: up to its reply nothing shows. -/
theorem mute_exchange {h : Handler} {α : Type} {name : Bytes} {sent : GatewayRequest → Prop}
    {p : Act (Except HttpError GatewayResponse)} (hp : p.Ensures (Exchanged h name sent))
    {f : Except HttpError GatewayResponse → Act α} {Q : Trace → α → Prop}
    (bad : ∀ es err, Mute es → (∀ rsp ∈ fetched es, rsp.statusCode ≠ 200) →
      (f (.error err)).Ensures fun es' a => Q (es ++ es') a)
    (good : ∀ es rsp, Mute es → fetched es = [rsp] → rsp.statusCode = 200 →
      (f (.ok rsp)).Ensures fun es' a => Q (es ++ es') a) : (p >>= f).Ensures Q := by
  have prepared : ∀ {t : Trace}, Prepared t → Mute t ∧ fetched t = [] := by
    intro t ht
    refine ⟨?_, filterMap_prepared (fun _ => rfl) ht⟩
    cases ht with
    | inl h => simp [h, Mute]
    | inr h =>
        obtain ⟨b, hb⟩ := h
        simp [hb, Mute, drawn, mute]
  rw [Program.ensures_bind]
  refine hp.mono ?_
  intro es a ex
  cases ex with
  | unsent err hpre =>
      obtain ⟨hmute, hfetch⟩ := prepared hpre
      exact bad es err hmute (by simp [hfetch])
  | @refused pre req reply hpre hreq hreply =>
      obtain ⟨hmute, hfetch⟩ := prepared hpre
      refine bad _ _ ?_ ?_
      · intro e he
        cases List.mem_append.mp he with
        | inl he => exact hmute e he
        | inr he =>
            rw [List.mem_singleton.mp he]
            rfl
      · cases reply with
        | error err => simp [hfetch]
        | ok rsp =>
            have status : rsp.statusCode ≠ 200 := fun hs => hreply ⟨rsp, rfl, hs⟩
            simpa [hfetch] using status
  | @accepted pre cookies req rsp hpre hreq status hcookies =>
      obtain ⟨hmute, hfetch⟩ := prepared hpre
      have hrest : Mute cookies ∧ fetched cookies = [] := by
        unfold Refreshed at hcookies
        split at hcookies
        · simp [hcookies, Mute, fetched]
        · obtain ⟨now, rfl⟩ := hcookies
          exact mute_tokenEvents h.session _ name now
      refine good _ rsp ?_ ?_ status
      · intro e he
        cases List.mem_append.mp he with
        | inl he => exact hmute e he
        | inr he =>
            cases List.mem_cons.mp he with
            | inl he => rw [he]; rfl
            | inr he => exact hrest.1 e he
      · simp [hfetch, hrest.2]

section Handlers
variable (h : Handler) (r : Request)

/-- A file copied to the response is whole unless its reader fails midway. -/
theorem oneResponse_copy {es : Trace} {rsp : GatewayResponse} (hes : Mute es)
    (hfetch : fetched es = [rsp]) (status : rsp.statusCode = 200) (key value label : Bytes)
    (wrap : Bytes → HttpError) :
    (deferClose rsp do
      tell (.setHeader key value)
      match ← ioCopy rsp.body with
      | some err => h.error (wrap err) label
      | none => pure ()).Ensures fun es' _ =>
      OneResponse h.lib (es ++ es') ↔
        ∀ rsp ∈ fetched (es ++ es'),
          rsp.statusCode = 200 → rsp.body.err ≠ none → rsp.body.data = [] := by
  obtain ⟨hbody, hnone, herrs, hpages⟩ := hes.silence
  cases he : rsp.body.err <;> by_cases hd : rsp.body.data = [] <;>
    simp [he, hd, OneResponse, Whole, response_body, response_status, hbody, hnone, herrs, hpages,
      hfetch, status, -List.flatMap_eq_nil_iff]

theorem oneResponse_refusal {es : Trace} (hes : Mute es) (err : HttpError) (label : Bytes) :
    OneResponse h.lib (es ++ errorEvents h.lib err label) := by
  obtain ⟨hbody, hnone, herrs, -⟩ := hes.silence
  simp [OneResponse, response_body, response_status, hbody, hnone, herrs]

/-- A 200 reply whose body could not be read to its end. -/
def Broken (t : Trace) : Prop := ∃ rsp ∈ fetched t, rsp.statusCode = 200 ∧ rsp.body.err ≠ none

/-- A page follows an error only if it is empty, and is complete otherwise. -/
def RendersWell (failed : Prop) (t : Trace) : Prop :=
  (failed → ∀ page ∈ renderings t, page.written = []) ∧
  (¬failed → ∀ page ∈ renderings t, page.err = none)

theorem oneResponse_page {es : Trace} (hes : Mute es)
    (hstatus : ∀ rsp ∈ fetched es, rsp.statusCode ≠ 200) (page : Page) :
    (renderPage page).Ensures fun es' _ =>
      OneResponse h.lib (es ++ es') ↔ RendersWell (Broken (es ++ es')) (es ++ es') := by
  rw [ensures_renderPage]
  intro rendered
  obtain ⟨hbody, hnone, herrs, hpages⟩ := hes.silence
  have sound : ¬Broken (es ++ renderEvents page rendered) := by
    intro broken
    obtain ⟨rsp, hrsp, hs, -⟩ := broken
    rw [fetched_append, fetched_renderEvents, List.append_nil] at hrsp
    exact hstatus rsp hrsp hs
  by_cases hw : rendered.written = [] <;>
    simp [OneResponse, Whole, RendersWell, sound, response_body, response_status, hbody, hnone,
      herrs, hpages, hw, -List.flatMap_eq_nil_iff]

theorem oneResponse_token {es : Trace} {rsp : GatewayResponse} (hpost : r.method = str "POST")
    (hes : Mute es) (hfetch : fetched es = [rsp]) (status : rsp.statusCode = 200)
    (name label : Bytes) (page : Page) :
    (h.redirectWithToken r rsp name label >>= fun render =>
      if render then renderPage page else pure ()).Ensures fun es' _ =>
      OneResponse h.lib (es ++ es') ↔ RendersWell (Broken (es ++ es')) (es ++ es') := by
  obtain ⟨hbody, hnone, herrs, hpages⟩ := hes.silence
  have hget : r.method ≠ str "GET" := by
    rw [hpost]
    decide
  have hhead : r.method ≠ str "HEAD" := by
    rw [hpost]
    decide
  rw [Program.ensures_bind, ensures_redirectWithToken]
  cases hb : rsp.body.err with
  | some err =>
      simp only [if_true, ensures_renderPage]
      intro rendered
      by_cases hw : rendered.written = [] <;>
        simp [OneResponse, Whole, RendersWell, Broken, response_body, response_status, hbody,
          hnone, herrs, hpages, hfetch, status, hb, hw, -List.flatMap_eq_nil_iff]
  | none =>
      simp only [Program.pure_eq, Program.ensures_pure, Bool.false_eq_true, if_false]
      intro now
      obtain ⟨hmute, htoken⟩ := mute_tokenEvents h.session rsp.body.data name now
      obtain ⟨tbody, tnone, terrs, tpages⟩ := hmute.silence
      simp [OneResponse, Whole, RendersWell, Broken, response_body, response_status, hbody, hnone,
        herrs, hpages, hfetch, status, hb, htoken, tbody, tnone, terrs, tpages, redirectEvents,
        hget, hhead, List.findSome?_cons, -List.flatMap_eq_nil_iff]

theorem oneResponse_view {es : Trace} (hes : Mute es) (page : Page) (id : Nat)
    (wrap : Bytes → HttpError) (label : Bytes) :
    (do
      let rendered ← executeTemplate page
      match rendered.err with
      | some err => h.error (wrap err) label
      | none => pure () : Act Unit).Ensures fun es' _ =>
      OneResponse h.lib (es ++ (es' ++ [told (.closeBody id)])) ↔
        ∀ page ∈ renderings (es ++ (es' ++ [told (.closeBody id)])),
          page.err ≠ none → page.written = [] := by
  obtain ⟨hbody, hnone, herrs, hpages⟩ := hes.silence
  rw [Program.ensures_bind, ensures_executeTemplate]
  intro rendered
  cases he : rendered.err <;> by_cases hw : rendered.written = [] <;>
    simp [he, hw, OneResponse, Whole, response_body, response_status, hbody, hnone, herrs, hpages,
      -List.flatMap_eq_nil_iff]

theorem oneResponse_ok {es : Trace} (hes : Mute es) (rsp : GatewayResponse) :
    (deferClose rsp (tell (.writeHeader 200))).Ensures fun es' _ =>
      OneResponse h.lib (es ++ es') := by
  obtain ⟨hbody, hnone, herrs, hpages⟩ := hes.silence
  simp [OneResponse, Whole, response_body, response_status, hbody, hnone, herrs, hpages,
    -List.flatMap_eq_nil_iff]

/-- What decides whether a handler answers with one response: the gateway's
bodies and the templates must not fail once they have delivered something. -/
def Undisturbed (r : Request) (t : Trace) : HandlerName → Prop
  | .getFileHandler | .indexHTMLHandler =>
    ∀ rsp ∈ fetched t, rsp.statusCode = 200 → rsp.body.err ≠ none → rsp.body.data = []
  | .viewHandler => ∀ page ∈ renderings t, page.err ≠ none → page.written = []
  | .registerHandler => RendersWell (Broken t) t
  | .loginHandler =>
    RendersWell (Broken t ∨ r.method = str "POST" ∧ (requestParameters r).toOption = none) t
  | .uploadHandler | .removeHandler | .shareTextHandler => True

theorem copies_response {es : Trace} (hes : Mute es)
    (hstatus : ∀ rsp ∈ fetched es, rsp.statusCode ≠ 200) (err : HttpError) (label : Bytes) :
    OneResponse h.lib (es ++ errorEvents h.lib err label) ↔
      ∀ rsp ∈ fetched (es ++ errorEvents h.lib err label),
        rsp.statusCode = 200 → rsp.body.err ≠ none → rsp.body.data = [] := by
  refine iff_of_true (oneResponse_refusal h hes err label) ?_
  intro rsp hrsp hs
  rw [fetched_append, fetched_errorEvents, List.append_nil] at hrsp
  exact absurd hs (hstatus rsp hrsp)

theorem mute_nil : Mute [] := by simp [Mute]

theorem getFileHandler_response :
    (h.getFileHandler r).Ensures fun t _ => OneResponse h.lib t ↔ Undisturbed r t .getFileHandler := by
  unfold Handler.getFileHandler
  cases requestParameters r with
  | error err => exact (ensures_error h _ _ _).mpr (copies_response h mute_nil (by simp) _ _)
  | ok sp =>
      refine mute_exchange (makeGetRequest_exchanged h r _ _ _) ?_ ?_
      · intro es err hes hstatus
        exact (ensures_error h _ _ _).mpr (copies_response h hes hstatus _ _)
      · intro es rsp hes hfetch status
        exact oneResponse_copy h hes hfetch status _ _ _ _

theorem indexHTMLHandler_response :
    (h.indexHTMLHandler r).Ensures fun t _ =>
      OneResponse h.lib t ↔ Undisturbed r t .indexHTMLHandler := by
  unfold Handler.indexHTMLHandler
  cases requestParameters r with
  | error err => exact (ensures_error h _ _ _).mpr (copies_response h mute_nil (by simp) _ _)
  | ok sp =>
      refine mute_exchange (makeGetRequest_exchanged h r _ _ _) ?_ ?_
      · intro es err hes hstatus
        exact (ensures_error h _ _ _).mpr (copies_response h hes hstatus _ _)
      · intro es rsp hes hfetch status
        exact oneResponse_copy h hes hfetch status _ _ _ _

theorem viewHandler_response :
    (h.viewHandler r).Ensures fun t _ => OneResponse h.lib t ↔ Undisturbed r t .viewHandler := by
  have refused : ∀ {es : Trace}, Mute es → ∀ err label tail, Mute tail →
      (OneResponse h.lib (es ++ (errorEvents h.lib err label ++ tail)) ↔
        Undisturbed r (es ++ (errorEvents h.lib err label ++ tail)) .viewHandler) := by
    intro es hes err label tail htail
    obtain ⟨hbody, hnone, herrs, hpages⟩ := hes.silence
    obtain ⟨tbody, tnone, terrs, tpages⟩ := htail.silence
    simp [OneResponse, Undisturbed, response_body, response_status, hbody, hnone, herrs, hpages,
      tbody, tnone, terrs, tpages]
  unfold Handler.viewHandler
  cases requestParameters r with
  | error err => simpa using refused mute_nil _ _ _ mute_nil
  | ok sp =>
      refine mute_exchange (makeGetRequest_exchanged h r _ _ _) ?_ ?_
      · intro es err hes hstatus
        simpa using refused hes _ _ _ mute_nil
      · intro es rsp hes hfetch status
        simp only [ensures_deferClose]
        cases h.lib.decodeFiles rsp.body with
        | error err =>
            have close : Mute [told (.closeBody rsp.body.id)] := by simp [Mute, told, mute]
            simpa using refused hes _ _ _ close
        | ok files => exact oneResponse_view h hes _ _ _ _

theorem uploadHandler_response :
    (h.uploadHandler r).Ensures fun t _ => OneResponse h.lib t := by
  unfold Handler.uploadHandler
  cases requestParameters r with
  | error err => exact (ensures_error h _ _ _).mpr (oneResponse_refusal h mute_nil _ _)
  | ok sp =>
      refine mute_exchange (makeMultipartRequest_exchanged h r _ _) ?_ ?_
      · intro es err hes _
        exact (ensures_error h _ _ _).mpr (oneResponse_refusal h hes _ _)
      · intro es rsp hes _ _
        exact oneResponse_ok h hes rsp

theorem removeHandler_response :
    (h.removeHandler r).Ensures fun t _ => OneResponse h.lib t := by
  unfold Handler.removeHandler
  split
  · exact (ensures_error h _ _ _).mpr (oneResponse_refusal h mute_nil _ _)
  · cases requestParameters r with
    | error err => exact (ensures_error h _ _ _).mpr (oneResponse_refusal h mute_nil _ _)
    | ok sp =>
        refine mute_exchange (makePostRequest_exchanged h r _ _ _) ?_ ?_
        · intro es err hes _
          exact (ensures_error h _ _ _).mpr (oneResponse_refusal h hes _ _)
        · intro es rsp hes _ _
          exact oneResponse_ok h hes rsp

theorem shareTextHandler_response :
    (h.shareTextHandler r).Ensures fun t _ => OneResponse h.lib t := by
  unfold Handler.shareTextHandler
  simp only
  split
  · exact (ensures_error h _ _ _).mpr (oneResponse_refusal h mute_nil _ _)
  · cases requestParameters r with
    | error err => exact (ensures_error h _ _ _).mpr (oneResponse_refusal h mute_nil _ _)
    | ok sp =>
        refine mute_exchange (makePostRequest_exchanged h r _ _ _) ?_ ?_
        · intro es err hes _
          exact (ensures_error h _ _ _).mpr (oneResponse_refusal h hes _ _)
        · intro es rsp hes _ _
          exact oneResponse_ok h hes rsp

theorem registerHandler_response :
    (h.registerHandler r).Ensures fun t _ =>
      OneResponse h.lib t ↔ Undisturbed r t .registerHandler := by
  unfold Handler.registerHandler Handler.registerBody Undisturbed
  split
  · simpa using oneResponse_page h mute_nil (by simp) (.register .new)
  · rename_i hpost
    simp only
    split
    · simpa using oneResponse_page h mute_nil (by simp) (.register _)
    · rw [Program.bind_assoc]
      refine mute_exchange (makePostRequest_exchanged h r _ _ _) ?_ ?_
      · intro es err hes hstatus
        exact oneResponse_page h hes hstatus _
      · intro es rsp hes hfetch status
        simp only [Program.bind_assoc, Program.pure_eq, Program.pure_bind]
        exact oneResponse_token h r (not_not.mp hpost) hes hfetch status _ _ _

theorem loginHandler_response :
    (h.loginHandler r).Ensures fun t _ =>
      OneResponse h.lib t ↔ Undisturbed r t .loginHandler := by
  unfold Handler.loginHandler Handler.loginBody Undisturbed
  split
  · rename_i hget
    simpa [hget] using oneResponse_page h mute_nil (by simp) (.login .new)
  · rename_i hpost
    have hpost := not_not.mp hpost
    cases hp : requestParameters r with
    | error err =>
        simp only [Program.bind_assoc, Program.ensures_bind, ensures_error, Program.pure_eq,
          Program.ensures_pure, if_true, ensures_renderPage]
        intro rendered
        by_cases hw : rendered.written = [] <;>
          simp [OneResponse, Whole, RendersWell, response_body, response_status, hpost, hw,
            Except.toOption, -List.flatMap_eq_nil_iff]
    | ok sp =>
        simp only [Except.toOption, reduceCtorEq, and_false, or_false]
        split
        · simpa using oneResponse_page h mute_nil (by simp) (.login _)
        · rw [Program.bind_assoc]
          refine mute_exchange (makePostRequest_exchanged h r _ _ _) ?_ ?_
          · intro es err hes hstatus
            exact oneResponse_page h hes hstatus _
          · intro es rsp hes hfetch status
            simp only [Program.bind_assoc, Program.pure_eq, Program.pure_bind]
            exact oneResponse_token h r hpost hes hfetch status _ _ _

/-- Exactly when a handler answers with one response and no mixture. -/
theorem oneResponse_iff_undisturbed (name : HandlerName) :
    (h.run name r).Ensures fun t _ => OneResponse h.lib t ↔ Undisturbed r t name := by
  cases name with
  | registerHandler => exact registerHandler_response h r
  | loginHandler => exact loginHandler_response h r
  | indexHTMLHandler => exact indexHTMLHandler_response h r
  | viewHandler => exact viewHandler_response h r
  | uploadHandler => exact (uploadHandler_response h r).mono fun _ _ one => iff_of_true one trivial
  | removeHandler => exact (removeHandler_response h r).mono fun _ _ one => iff_of_true one trivial
  | getFileHandler => exact getFileHandler_response h r
  | shareTextHandler =>
      exact (shareTextHandler_response h r).mono fun _ _ one => iff_of_true one trivial

end Handlers

/-- A download whose body breaks off after two bytes. -/
theorem response_mixed :
    ¬∀ (h : Handler) (name : HandlerName) (r : Request),
      (h.run name r).Ensures fun t _ => OneResponse h.lib t := by
  intro one
  have mixed := one .plain .getFileHandler
    { method := str "GET", url := ⟨str "/common/a/", []⟩, cookies := [], form := []
      multipart := .error [], ctx := [] }
    (.ok ⟨200, [], ⟨0, str "ab", some (str "unexpected EOF")⟩⟩) () () () () () () ()
  cases mixed with
  | inl h =>
      obtain ⟨err, -, status, -⟩ := h
      exact absurd status (by decide)
  | inr h => exact absurd h.1 (by decide)

end FileSharing
