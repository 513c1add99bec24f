import FileSharing.Web.Exchange

/-!
What a complete run of a handler does besides answering the browser: it sends at
most one gateway request, the one `Handler.sends` allows, sets cookies only for
the storage of that request and from its reply, and closes the reply's body once
if it was accepted.
-/

namespace FileSharing
open Net Effects

/-- Anything but sending a request, setting a cookie or closing a body. -/
def quiet : Event world → Bool
  | ⟨.doRequest _ _, _⟩ => false
  | ⟨.tell (.addCookie _), _⟩ => false
  | ⟨.tell (.closeBody _), _⟩ => false
  | _ => true

def Silent (t : Trace) : Prop := ∀ e ∈ t, quiet e

@[simp] theorem silent_nil : Silent [] := by simp [Silent]

@[simp] theorem silent_cons (e : Event world) (t : Trace) :
    Silent (e :: t) ↔ quiet e ∧ Silent t := by
  simp [Silent]

@[simp] theorem silent_append (t t' : Trace) : Silent (t ++ t') ↔ Silent t ∧ Silent t' := by
  simp [Silent, or_imp, forall_and]

/-- What a silent trace does not show. -/
theorem filterMap_silent {β : Type} {f : Event world → Option β}
    (hf : ∀ e, quiet e = true → f e = none) {t : Trace} (ht : Silent t) : t.filterMap f = [] :=
  List.filterMap_eq_nil_iff.mpr fun e he => hf e (ht e he)

/-- The bodies of these replies are session tokens. -/
def Handler.IssuesToken (h : Handler) (req : GatewayRequest) : Prop :=
  req.url = h.makeURL (str "login") ∨ req.url = h.makeURL (str "register")

/-- The tokens an accepted reply hands out. -/
def Handler.Issued (h : Handler) (req : GatewayRequest) (rsp : GatewayResponse) (token : Bytes) :
    Prop :=
  token = rsp.xToken ∨ h.IssuesToken req ∧ rsp.body.err = none ∧ token = rsp.body.data

/-- A quiet event, or a cookie of the storage with a token that the reply handed
out. -/
def Handler.SetsIssued (h : Handler) (name : Bytes) (req : GatewayRequest)
    (rsp : GatewayResponse) : Event world → Prop
  | ⟨.tell (.addCookie c), _⟩ =>
    c.name = name ∧ ∃ token, h.Issued req rsp token ∧ c.value = sanitizeCookieValue token
  | e => quiet e = true

/-- The storage and the request a handler contacts the gateway with. -/
def Handler.sends (h : Handler) (r : Request) : HandlerName → Bytes → GatewayRequest → Prop
  | .registerHandler, name, req =>
    r.method = str "POST" ∧ name = r.formValue (str "name") ∧ name ≠ [] ∧
      req = h.postRequest r name (str "register")
        [(str "storage", name), (str "password", r.formValue (str "password"))]
  | .loginHandler, name, req =>
    r.method = str "POST" ∧ ∃ sp, requestParameters r = .ok sp ∧ name = sp.storageName ∧
      req = h.postRequest r name (str "login")
        (sp.values.add (str "password") (r.formValue (str "password")))
  | .indexHTMLHandler, name, req =>
    ∃ sp, requestParameters r = .ok sp ∧ name = sp.storageName ∧
      req = h.getRequest r name (str "index.html") sp.values
  | .viewHandler, name, req =>
    ∃ sp, requestParameters r = .ok sp ∧ name = sp.storageName ∧
      req = h.getRequest r name (str "list") sp.values
  | .uploadHandler, name, req =>
    ∃ sp, requestParameters r = .ok sp ∧ name = sp.storageName ∧
      ∃ stream files boundary, r.multipart = .ok stream ∧ copyParts stream = .ok files ∧
        req = h.uploadRequest r name (str "upload") boundary files
  | .removeHandler, name, req =>
    r.formValue (str "fileName") ≠ [] ∧ ∃ sp, requestParameters r = .ok sp ∧
      name = sp.storageName ∧ req = h.postRequest r name (str "remove") sp.values
  | .getFileHandler, name, req =>
    ∃ sp, requestParameters r = .ok sp ∧ name = sp.storageName ∧
      req = h.getRequest r name (str "file") sp.values
  | .shareTextHandler, name, req =>
    r.formValue (str "title") ≠ [] ∧ r.formValue (str "body") ≠ [] ∧
      ∃ sp, requestParameters r = .ok sp ∧ name = sp.storageName ∧
        req = h.postRequest r name (str "shareText")
          ((sp.values.add (str "title") (r.formValue (str "title"))).add (str "body")
            (r.formValue (str "body")))

theorem requestParameters_unique {r : Request} {sp sp' : StorageParameters}
    (hsp : requestParameters r = .ok sp) (hsp' : requestParameters r = .ok sp') : sp' = sp :=
  Except.ok.inj (hsp'.symm.trans hsp)

/-- Apart from registration, a handler contacts the gateway for the storage of its
parameters. -/
theorem sends_storage {h : Handler} {r : Request} {handler : HandlerName}
    (other : handler ≠ .registerHandler) {sp : StorageParameters}
    (hsp : requestParameters r = .ok sp) {name : Bytes} {req : GatewayRequest}
    (sent : h.sends r handler name req) : name = sp.storageName := by
  cases handler with
  | registerHandler => exact absurd rfl other
  | loginHandler =>
      obtain ⟨-, sp', hsp', rfl, -⟩ := sent
      rw [requestParameters_unique hsp hsp']
  | indexHTMLHandler | viewHandler | uploadHandler | getFileHandler =>
      obtain ⟨sp', hsp', rfl, -⟩ := sent
      rw [requestParameters_unique hsp hsp']
  | removeHandler =>
      obtain ⟨-, sp', hsp', rfl, -⟩ := sent
      rw [requestParameters_unique hsp hsp']
  | shareTextHandler =>
      obtain ⟨-, -, sp', hsp', rfl, -⟩ := sent
      rw [requestParameters_unique hsp hsp']

inductive Ledger (h : Handler) (sends : Bytes → GatewayRequest → Prop) : Trace → Prop where
  | idle {t : Trace} (ht : Silent t) : Ledger h sends t
  | refused {pre post : Trace} {name : Bytes} {req : GatewayRequest}
      {reply : Except Bytes GatewayResponse} (hpre : Silent pre) (sent : sends name req)
      (hreply : ¬Accepted reply) (hpost : Silent post) :
      Ledger h sends (pre ++ asked name req reply :: post)
  | accepted {pre mid post : Trace} {name : Bytes} {req : GatewayRequest} {rsp : GatewayResponse}
      (hpre : Silent pre) (sent : sends name req) (status : rsp.statusCode = 200)
      (hmid : ∀ e ∈ mid, h.SetsIssued name req rsp e) (hpost : Silent post) :
      Ledger h sends (pre ++ asked name req (.ok rsp) :: mid ++
        told (.closeBody rsp.body.id) :: post)

theorem Ledger.mono {h : Handler} {sends sends' : Bytes → GatewayRequest → Prop} {t : Trace}
    (ledger : Ledger h sends t) (imp : ∀ name req, sends name req → sends' name req) :
    Ledger h sends' t := by
  cases ledger with
  | idle ht => exact .idle ht
  | refused hpre sent hreply hpost => exact .refused hpre (imp _ _ sent) hreply hpost
  | accepted hpre sent status hmid hpost => exact .accepted hpre (imp _ _ sent) status hmid hpost

/-- All that a run asks is one request that its handler sends. -/
theorem Ledger.request {h : Handler} {sends : Bytes → GatewayRequest → Prop} {t : Trace}
    (ledger : Ledger h sends t) {e : Event world} (he : e ∈ t) {name : Bytes} {req : GatewayRequest}
    {reply : Except Bytes GatewayResponse} (asks : e = asked name req reply) :
    sends name req ∧ ∀ e' ∈ t, ∀ name' req' reply', e' = asked name' req' reply' → e' = e := by
  have loud : ∀ {t : Trace}, Silent t → ∀ e ∈ t, ∀ name req reply, e ≠ asked name req reply := by
    intro t ht e he name req reply asks
    rw [asks] at he
    cases ht _ he
  cases ledger with
  | idle ht => exact absurd asks (loud ht e he _ _ _)
  | @refused pre post name' req' reply' hpre sent hreply hpost =>
      have only : ∀ e ∈ pre ++ asked name' req' reply' :: post, ∀ name req reply,
          e = asked name req reply → e = asked name' req' reply' := by
        intro e he name req reply asks
        rcases List.mem_append.mp he with he | he
        · exact absurd asks (loud hpre e he _ _ _)
        · rcases List.mem_cons.mp he with he | he
          · exact he
          · exact absurd asks (loud hpost e he _ _ _)
      have here := only e he _ _ _ asks
      rw [here] at asks ⊢
      cases asks
      exact ⟨sent, only⟩
  | @accepted pre mid post name' req' rsp hpre sent status hmid hpost =>
      have only : ∀ e ∈ pre ++ asked name' req' (.ok rsp) :: mid ++
          told (.closeBody rsp.body.id) :: post, ∀ name req reply,
          e = asked name req reply → e = asked name' req' (.ok rsp) := by
        intro e he name req reply asks
        rcases List.mem_append.mp he with he | he
        · rcases List.mem_append.mp he with he | he
          · exact absurd asks (loud hpre e he _ _ _)
          · rcases List.mem_cons.mp he with he | he
            · exact he
            · rw [asks] at he
              cases hmid _ he
        · rcases List.mem_cons.mp he with he | he
          · rw [he] at asks
            cases asks
          · exact absurd asks (loud hpost e he _ _ _)
      have here := only e he _ _ _ asks
      rw [here] at asks ⊢
      cases asks
      exact ⟨sent, only⟩

theorem Ledger.sent {h : Handler} {sends : Bytes → GatewayRequest → Prop} {t : Trace}
    (ledger : Ledger h sends t) {name : Bytes} {req : GatewayRequest}
    {reply : Except Bytes GatewayResponse} (he : asked name req reply ∈ t) : sends name req :=
  (ledger.request he rfl).1

theorem Ledger.sole {h : Handler} {sends : Bytes → GatewayRequest → Prop} {t : Trace}
    (ledger : Ledger h sends t) {name name' : Bytes} {req req' : GatewayRequest}
    {reply reply' : Except Bytes GatewayResponse} (he : asked name req reply ∈ t)
    (he' : asked name' req' reply' ∈ t) : reply = reply' := by
  have same := (ledger.request he rfl).2 _ he' _ _ _ rfl
  cases same
  rfl

/-- The end of a run after an accepted reply. -/
def Closes (h : Handler) (name : Bytes) (req : GatewayRequest) (rsp : GatewayResponse)
    (t : Trace) : Prop :=
  ∃ mid post, t = mid ++ told (.closeBody rsp.body.id) :: post ∧
    (∀ e ∈ mid, h.SetsIssued name req rsp e) ∧ Silent post

theorem setsIssued_of_quiet {e : Event world} (he : quiet e) (h : Handler) (name : Bytes)
    (req : GatewayRequest) (rsp : GatewayResponse) : h.SetsIssued name req rsp e := by
  unfold Handler.SetsIssued
  split
  · cases he
  · exact he

theorem silent_prepared {t : Trace} (ht : Prepared t) : Silent t := by
  cases ht with
  | inl h => simp [h]
  | inr h =>
      obtain ⟨b, hb⟩ := h
      simp [hb, drawn, quiet]

@[simp] theorem silent_errorEvents (lib : Stdlib) (err : HttpError) (handler : Bytes) :
    Silent (errorEvents lib err handler) := by
  simp [errorEvents, told, quiet]

@[simp] theorem silent_copyEvents (body : Body) : Silent (copyEvents body) := by
  by_cases hd : body.data = [] <;> simp [copyEvents, told, quiet, hd]

@[simp] theorem silent_renderEvents (page : Page) (rendered : Rendered) :
    Silent (renderEvents page rendered) := by
  cases he : rendered.err <;> simp [renderEvents, executed, told, quiet, he]

@[simp] theorem silent_redirectEvents (lib : Stdlib) (r : Request) (url : Bytes) (code : Nat) :
    Silent (redirectEvents lib r url code) := by
  have distinct : str "HEAD" ≠ str "GET" := by decide
  by_cases hg : r.method = str "GET" <;> by_cases hh : r.method = str "HEAD" <;>
    simp [redirectEvents, told, quiet, hg, hh, distinct]

theorem setsIssued_tokenEvents (h : Handler) {name token : Bytes} {req : GatewayRequest}
    {rsp : GatewayResponse} (issued : h.Issued req rsp token) (now : Int) :
    ∀ e ∈ h.session.tokenEvents token name now, h.SetsIssued name req rsp e := by
  have cookie : ∃ t, h.Issued req rsp t ∧ sanitizeCookieValue token = sanitizeCookieValue t :=
    ⟨token, issued, rfl⟩
  cases ht : isToken name <;>
    simp [CookieSession.tokenEvents, CookieSession.cookie, told, clock, Handler.SetsIssued, quiet, ht,
      cookie]

theorem setsIssued_refreshed (h : Handler) {name : Bytes} {rsp : GatewayResponse} {t : Trace}
    (ht : Refreshed h.session rsp name t) (req : GatewayRequest) :
    ∀ e ∈ t, h.SetsIssued name req rsp e := by
  by_cases hx : rsp.xToken = []
  · have nil : t = [] := by simpa [Refreshed, hx] using ht
    simp [nil]
  · obtain ⟨now, tok⟩ : ∃ now, t = h.session.tokenEvents rsp.xToken name now := by
      simpa [Refreshed, hx] using ht
    rw [tok]
    exact setsIssued_tokenEvents h (.inl rfl) now

/-- The rule for a handler with an exchange: the rest of the handler is quiet
after a failure, and closes the body after a success. -/
theorem ledger_exchange {h : Handler} {sends : Bytes → GatewayRequest → Prop} {α : Type}
    {name : Bytes} {sent : GatewayRequest → Prop} {p : Act (Except HttpError GatewayResponse)}
    (hp : p.Ensures (Exchanged h name sent)) (hsent : ∀ req, sent req → sends name req)
    {f : Except HttpError GatewayResponse → Act α}
    (bad : ∀ err, (f (.error err)).Ensures fun es _ => Silent es)
    (good : ∀ req rsp, sent req → (f (.ok rsp)).Ensures fun es _ => Closes h name req rsp es) :
    (p >>= f).Ensures fun es _ => Ledger h sends es := by
  rw [Program.ensures_bind]
  refine hp.mono ?_
  intro es a ex
  cases ex with
  | unsent err hpre =>
      refine (bad err).mono ?_
      intro es' _ hes'
      exact .idle ((silent_append _ _).mpr ⟨silent_prepared hpre, hes'⟩)
  | refused hpre hreq hreply =>
      refine (bad _).mono ?_
      intro es' _ hes'
      simpa using Ledger.refused (silent_prepared hpre) (hsent _ hreq) hreply hes'
  | accepted hpre hreq status hcookies =>
      refine (good _ _ hreq).mono ?_
      intro es' _ hes'
      obtain ⟨mid, post, rfl, hmid, hpost⟩ := hes'
      have all : ∀ e ∈ _ ++ mid, h.SetsIssued name _ _ e := fun e he =>
        (List.mem_append.mp he).elim (setsIssued_refreshed h hcookies _ e) (hmid e)
      simpa using Ledger.accepted (silent_prepared hpre) (hsent _ hreq) status all hpost

theorem closes_deferClose (h : Handler) (name : Bytes) (req : GatewayRequest)
    (rsp : GatewayResponse) {α : Type} {rest : Act α}
    (hrest : rest.Ensures fun es _ => Silent es) :
    (deferClose rsp rest).Ensures fun es _ => Closes h name req rsp es := by
  rw [ensures_deferClose]
  refine hrest.mono ?_
  intro es _ hes
  refine ⟨es, [], rfl, ?_, silent_nil⟩
  intro e he
  exact setsIssued_of_quiet (hes e he) h name req rsp

/-- Reading the token, storing it and redirecting, with whatever quiet events
follow once the body is closed. -/
theorem closes_redirectWithToken (h : Handler) (r : Request) (name handler : Bytes)
    {req : GatewayRequest} (token : h.IssuesToken req) (rsp : GatewayResponse) {α : Type}
    {rest : Bool → Act α} (hrest : ∀ b, (rest b).Ensures fun es _ => Silent es) :
    (h.redirectWithToken r rsp name handler >>= rest).Ensures fun es _ =>
      Closes h name req rsp es := by
  rw [Program.ensures_bind, ensures_redirectWithToken]
  cases hb : rsp.body.err with
  | some err =>
      refine (hrest true).mono ?_
      intro es _ hes
      refine ⟨_, es, by rw [List.append_assoc]; rfl, ?_, hes⟩
      intro e he
      exact setsIssued_of_quiet (silent_errorEvents _ _ _ e he) h _ _ _
  | none =>
      intro now
      refine (hrest false).mono ?_
      intro es _ hes
      refine ⟨_, es, by rw [List.append_assoc]; rfl, ?_, hes⟩
      intro e he
      cases List.mem_append.mp he with
      | inl he => exact setsIssued_tokenEvents h (.inr ⟨token, hb, rfl⟩) now e he
      | inr he => exact setsIssued_of_quiet (silent_redirectEvents _ _ _ _ e he) h _ _ _

section Handlers
variable (h : Handler) (r : Request)

theorem indexHTMLHandler_ledger :
    (h.indexHTMLHandler r).Ensures fun t _ => Ledger h (h.sends r .indexHTMLHandler) t := by
  unfold Handler.indexHTMLHandler
  cases hp : requestParameters r with
  | error err => exact (ensures_error h _ _ _).mpr (.idle (silent_errorEvents _ _ _))
  | ok sp =>
      refine ledger_exchange (makeGetRequest_exchanged h r _ _ _) ?_ ?_ ?_
      · exact fun req hreq => ⟨sp, hp, rfl, hreq⟩
      · intro err
        simp
      · intro req rsp _
        apply closes_deferClose
        cases he : rsp.body.err <;> simp [he, told, quiet]

theorem getFileHandler_ledger :
    (h.getFileHandler r).Ensures fun t _ => Ledger h (h.sends r .getFileHandler) t := by
  unfold Handler.getFileHandler
  cases hp : requestParameters r with
  | error err => exact (ensures_error h _ _ _).mpr (.idle (silent_errorEvents _ _ _))
  | ok sp =>
      refine ledger_exchange (makeGetRequest_exchanged h r _ _ _) ?_ ?_ ?_
      · exact fun req hreq => ⟨sp, hp, rfl, hreq⟩
      · intro err
        simp
      · intro req rsp _
        apply closes_deferClose
        cases he : rsp.body.err <;> simp [he, told, quiet]

theorem viewHandler_ledger :
    (h.viewHandler r).Ensures fun t _ => Ledger h (h.sends r .viewHandler) t := by
  unfold Handler.viewHandler
  cases hp : requestParameters r with
  | error err => exact (ensures_error h _ _ _).mpr (.idle (silent_errorEvents _ _ _))
  | ok sp =>
      refine ledger_exchange (makeGetRequest_exchanged h r _ _ _) ?_ ?_ ?_
      · exact fun req hreq => ⟨sp, hp, rfl, hreq⟩
      · intro err
        simp
      · intro req rsp _
        apply closes_deferClose
        cases h.lib.decodeFiles rsp.body with
        | error err => simp
        | ok files =>
            simp only [Program.ensures_bind, ensures_executeTemplate]
            intro rendered
            cases rendered.err <;> simp [executed, quiet]

theorem uploadHandler_ledger :
    (h.uploadHandler r).Ensures fun t _ => Ledger h (h.sends r .uploadHandler) t := by
  unfold Handler.uploadHandler
  cases hp : requestParameters r with
  | error err => exact (ensures_error h _ _ _).mpr (.idle (silent_errorEvents _ _ _))
  | ok sp =>
      refine ledger_exchange (makeMultipartRequest_exchanged h r _ _) ?_ ?_ ?_
      · exact fun req hreq => ⟨sp, hp, rfl, hreq⟩
      · intro err
        simp
      · intro req rsp _
        apply closes_deferClose
        simp [told, quiet]

theorem removeHandler_ledger :
    (h.removeHandler r).Ensures fun t _ => Ledger h (h.sends r .removeHandler) t := by
  unfold Handler.removeHandler
  split
  · exact (ensures_error h _ _ _).mpr (.idle (silent_errorEvents _ _ _))
  · rename_i named
    cases hp : requestParameters r with
    | error err => exact (ensures_error h _ _ _).mpr (.idle (silent_errorEvents _ _ _))
    | ok sp =>
        refine ledger_exchange (makePostRequest_exchanged h r _ _ _) ?_ ?_ ?_
        · exact fun req hreq => ⟨named, sp, hp, rfl, hreq⟩
        · intro err
          simp
        · intro req rsp _
          apply closes_deferClose
          simp [told, quiet]

theorem shareTextHandler_ledger :
    (h.shareTextHandler r).Ensures fun t _ => Ledger h (h.sends r .shareTextHandler) t := by
  unfold Handler.shareTextHandler
  simp only
  split
  · exact (ensures_error h _ _ _).mpr (.idle (silent_errorEvents _ _ _))
  · rename_i missing
    have titled := not_or.mp missing
    cases hp : requestParameters r with
    | error err => exact (ensures_error h _ _ _).mpr (.idle (silent_errorEvents _ _ _))
    | ok sp =>
        refine ledger_exchange (makePostRequest_exchanged h r _ _ _) ?_ ?_ ?_
        · exact fun req hreq => ⟨titled.1, titled.2, sp, hp, rfl, hreq⟩
        · intro err
          simp
        · intro req rsp _
          apply closes_deferClose
          simp [told, quiet]

theorem registerHandler_ledger :
    (h.registerHandler r).Ensures fun t _ => Ledger h (h.sends r .registerHandler) t := by
  unfold Handler.registerHandler Handler.registerBody
  split
  · simpa using fun rendered => Ledger.idle (silent_renderEvents _ rendered)
  · rename_i posted
    simp only
    split
    · simpa using fun rendered => Ledger.idle (silent_renderEvents _ rendered)
    · rename_i named
      rw [Program.bind_assoc]
      refine ledger_exchange (makePostRequest_exchanged h r _ _ _) ?_ ?_ ?_
      · exact fun req hreq => ⟨not_not.mp posted, rfl, named, hreq⟩
      · intro err
        simp
      · intro req rsp hreq
        have token : h.IssuesToken req := by
          rw [hreq]
          exact .inr rfl
        simp only [Program.bind_assoc]
        apply closes_redirectWithToken h r _ _ token
        intro b
        cases b <;> simp

theorem loginUserInfo_password (sp : StorageParameters) :
    (Handler.loginUserInfo r sp).password = r.formValue (str "password") := by
  have keeps : ∀ (t : TemplatePassword) (name text : Bytes),
      (t.addError name text).password = t.password := fun _ _ _ => rfl
  simp only [Handler.loginUserInfo]
  split <;> split <;> simp [keeps]

theorem loginHandler_ledger :
    (h.loginHandler r).Ensures fun t _ => Ledger h (h.sends r .loginHandler) t := by
  unfold Handler.loginHandler Handler.loginBody
  split
  · simpa using fun rendered => Ledger.idle (silent_renderEvents _ rendered)
  · rename_i posted
    cases hp : requestParameters r with
    | error err =>
        simp only [Program.bind_assoc, Program.ensures_bind, ensures_error]
        simp
        intro rendered
        apply Ledger.idle
        simp
    | ok sp =>
        simp only
        split
        · simpa using fun rendered => Ledger.idle (silent_renderEvents _ rendered)
        · rw [Program.bind_assoc]
          refine ledger_exchange (makePostRequest_exchanged h r _ _ _) ?_ ?_ ?_
          · intro req hreq
            rw [loginUserInfo_password] at hreq
            exact ⟨not_not.mp posted, sp, hp, rfl, hreq⟩
          · intro err
            simp
          · intro req rsp hreq
            have token : h.IssuesToken req := by
              rw [hreq]
              exact .inl rfl
            simp only [Program.bind_assoc]
            apply closes_redirectWithToken h r _ _ token
            intro b
            cases b <;> simp

/-- Every complete run of every handler. -/
theorem run_ledger (name : HandlerName) :
    (h.run name r).Ensures fun t _ => Ledger h (h.sends r name) t := by
  cases name with
  | registerHandler => exact registerHandler_ledger h r
  | loginHandler => exact loginHandler_ledger h r
  | indexHTMLHandler => exact indexHTMLHandler_ledger h r
  | viewHandler => exact viewHandler_ledger h r
  | uploadHandler => exact uploadHandler_ledger h r
  | removeHandler => exact removeHandler_ledger h r
  | getFileHandler => exact getFileHandler_ledger h r
  | shareTextHandler => exact shareTextHandler_ledger h r

end Handlers
end FileSharing
