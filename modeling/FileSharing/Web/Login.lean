import FileSharing.Web.Decision
import FileSharing.Web.System

/-!
Registration and login, up to the redirect that ends them: the request that was
answered, the cookies and the Location of the response.
-/

namespace FileSharing
open Net Effects

/-- A token that passes through a cookie unchanged. -/
structure Token where
  bytes : Bytes
  nonempty : bytes ≠ []
  legal : bytes.all validCookieValueByte = true

/-- How a gateway hands out the one token of a login. -/
inductive Issue where
  | header
  | body
  | both
deriving DecidableEq

def Issue.reply (issue : Issue) (token : Bytes) (id : Nat) : GatewayResponse :=
  match issue with
  | .header => ⟨200, token, ⟨id, [], none⟩⟩
  | .body => ⟨200, [], ⟨id, token, none⟩⟩
  | .both => ⟨200, token, ⟨id, token, none⟩⟩

def replyOf : Event world → Option (Except Bytes GatewayResponse)
  | ⟨.doRequest _ _, reply⟩ => some reply
  | _ => none

/-- A request that registers or logs in to the storage. -/
def Enters (deployed : Bool) (request : Incoming) (name : Bytes) : Prop :=
  name ≠ [] ∧ request.method = str "POST" ∧
    ((∃ p, dispatch deployed request = .endpoint (.handler .registerHandler) p ∧
        request.form.get (str "name") = name) ∨
      ∃ sp, dispatch deployed request = .endpoint (.handler .loginHandler) (.ok sp) ∧
        sp.storageName = name)

/-- The redirect that ends a login. -/
def redirects : Event world → Bool
  | ⟨.tell (.writeHeader code), _⟩ => code == 302
  | _ => false

def Redirects (t : Trace) : Prop := t.any redirects

def locationOf : Event world → Option Bytes
  | ⟨.tell (.setHeader name value), _⟩ => if name = str "Location" then some value else none
  | _ => none

/-- The Location that http.Redirect makes of a storage. -/
def Handler.loginLocation (h : Handler) (path name : Bytes) : Bytes :=
  hexEscapeNonASCII (redirectURL (h.lib.parseURL (slash :: name)) path (slash :: name))

@[simp] theorem not_redirects_nil : ¬Redirects [] := Bool.false_ne_true

@[simp] theorem redirects_cons (e : Event world) (t : Trace) :
    Redirects (e :: t) ↔ redirects e = true ∨ Redirects t := by
  simp only [Redirects, List.any_cons, Bool.or_eq_true]

@[simp] theorem redirects_append (t t' : Trace) :
    Redirects (t ++ t') ↔ Redirects t ∨ Redirects t' := by
  simp only [Redirects, List.any_append, Bool.or_eq_true]

theorem cookies_silent {t : Trace} (ht : Silent t) : t.filterMap cookieOf = [] := by
  refine filterMap_silent ?_ ht
  intro e he
  unfold cookieOf
  split
  · cases he
  · rfl

theorem replies_silent {t : Trace} (ht : Silent t) : t.filterMap replyOf = [] := by
  refine filterMap_silent ?_ ht
  intro e he
  unfold replyOf
  split
  · cases he
  · rfl

/-- A login that was redirected: the gateway's reply, the cookies, of which the
one with the body of the reply comes last, and the Location. -/
structure Entered (h : Handler) (path name : Bytes) (rsp : GatewayResponse) (t : Trace) : Prop where
  replied : .ok rsp ∈ t.filterMap replyOf
  cookies : ∃ before now,
    t.filterMap cookieOf =
        before ++ (h.session.tokenEvents rsp.body.data name now).filterMap cookieOf ∧
      (isToken name = false → before = [])
  location : t.filterMap locationOf = [h.loginLocation path name]

section Login
variable (h : Handler) {name : Bytes} {rsp : GatewayResponse}

theorem cookies_tokenEvents (token : Bytes) (now : Int) :
    (h.session.tokenEvents token name now).filterMap cookieOf =
      if isToken name then [h.session.cookie token name now] else [] := by
  rw [CookieSession.tokenEvents]
  cases isToken name <;> rfl

theorem locations_tokenEvents (token : Bytes) (now : Int) :
    (h.session.tokenEvents token name now).filterMap locationOf = [] :=
  filterMap_tokenEvents (fun _ => rfl) (fun _ => rfl) _ _ _ _

theorem not_redirects_tokenEvents (token : Bytes) (now : Int) :
    ¬Redirects (h.session.tokenEvents token name now) := by
  rw [CookieSession.tokenEvents]
  cases isToken name <;> exact Bool.false_ne_true

/-- The refreshing of the session: no redirect, and no cookie that has no name. -/
theorem refreshed_quiet {t : Trace} (ht : Refreshed h.session rsp name t) :
    ¬Redirects t ∧ t.filterMap locationOf = [] ∧
      (isToken name = false → t.filterMap cookieOf = []) := by
  have location : t.filterMap locationOf = [] :=
    filterMap_refreshed (fun _ => rfl) (fun _ => rfl) ht
  rw [Refreshed] at ht
  split at ht
  · rw [ht]
    exact ⟨Bool.false_ne_true, rfl, fun _ => rfl⟩
  · obtain ⟨now, rfl⟩ := ht
    refine ⟨not_redirects_tokenEvents h _ _, location, ?_⟩
    intro hname
    rw [cookies_tokenEvents, hname]
    rfl

theorem prepared_quiet {t : Trace} (ht : Prepared t) :
    ¬Redirects t ∧ t.filterMap locationOf = [] := by
  refine ⟨?_, filterMap_prepared (fun _ => rfl) ht⟩
  cases ht with
  | inl ht =>
      rw [ht]
      exact Bool.false_ne_true
  | inr ht =>
      obtain ⟨b, rfl⟩ := ht
      exact Bool.false_ne_true

/-- The rule for a login: no redirect after a failed exchange, and after a
successful one none without the token in a cookie and the Location. -/
theorem entered_exchange {α : Type} {sent : GatewayRequest → Prop} {path : Bytes}
    {p : Act (Except HttpError GatewayResponse)} (hp : p.Ensures (Exchanged h name sent))
    {f : Except HttpError GatewayResponse → Act α}
    (bad : ∀ err, (f (.error err)).Ensures fun es _ => ¬Redirects es)
    (good : ∀ rsp, (f (.ok rsp)).Ensures fun es _ => Redirects es → ∃ now post,
      es = h.session.tokenEvents rsp.body.data name now ++ post ∧
        post.filterMap cookieOf = [] ∧ post.filterMap locationOf = [h.loginLocation path name]) :
    (p >>= f).Ensures fun es _ => Redirects es → ∃ rsp, Entered h path name rsp es := by
  have request : ∀ req reply, redirects (asked name req reply) = false := fun _ _ => rfl
  rw [Program.ensures_bind]
  refine hp.mono ?_
  intro es a ex
  cases ex with
  | unsent err hpre =>
      refine (bad err).mono ?_
      intro es' _ bad there
      simp only [redirects_append, prepared_quiet hpre, false_or] at there
      exact (bad there).elim
  | @refused pre req reply hpre hreq hreply =>
      refine (bad _).mono ?_
      intro es' _ bad there
      simp only [redirects_append, redirects_cons, not_redirects_nil, prepared_quiet hpre, request,
        Bool.false_eq_true, false_or] at there
      exact (bad there).elim
  | @accepted pre cookies req rsp hpre hreq status hcookies =>
      obtain ⟨unmoved, unlocated, uncookied⟩ := refreshed_quiet h hcookies
      refine (good rsp).mono ?_
      intro es' _ good there
      simp only [redirects_append, redirects_cons, prepared_quiet hpre, request, unmoved,
        Bool.false_eq_true, false_or] at there
      obtain ⟨now, post, rfl, last, location⟩ := good there
      have reply : replyOf (asked name req (.ok rsp)) = some (.ok rsp) := rfl
      have cookie : cookieOf (asked name req (.ok rsp)) = none := rfl
      have header : locationOf (asked name req (.ok rsp)) = none := rfl
      refine ⟨rsp, ?_, ⟨cookies.filterMap cookieOf, now, ?_, uncookied⟩, ?_⟩
      · simp [reply]
      · simp [cookie, cookies_silent (silent_prepared hpre), last]
      · simp [header, prepared_quiet hpre, unlocated, locations_tokenEvents, location]

/-- A page is no redirect. -/
def Stays (t : Trace) : Prop := ¬Redirects t ∧ t.filterMap cookieOf = [] ∧ t.filterMap locationOf = []

theorem stays_nil : Stays [] := ⟨Bool.false_ne_true, rfl, rfl⟩

theorem renderPage_stays (page : Page) : (renderPage page).Ensures fun es _ => Stays es := by
  rw [ensures_renderPage]
  intro rendered
  refine ⟨?_, cookies_silent (silent_renderEvents _ _), ?_⟩
  · rw [renderEvents]
    cases rendered.err <;> exact Bool.false_ne_true
  · rw [renderEvents]
    cases rendered.err <;> rfl

variable (r : Request)

theorem locations_redirectEvents (name : Bytes) :
    (redirectEvents h.lib r (slash :: name) 302).filterMap locationOf =
      [h.loginLocation r.url.path name] := by
  have other : str "Content-Type" ≠ str "Location" := by decide
  rw [redirectEvents]
  split <;> split <;> simp [locationOf, told, other, Handler.loginLocation]

/-- Only the branch that stores the token redirects. -/
theorem redirectWithToken_entered (rsp : GatewayResponse) (label : Bytes) {rest : Bool → Act Unit}
    (hrest : ∀ b, (rest b).Ensures fun es _ => Stays es) :
    (h.redirectWithToken r rsp name label >>= rest).Ensures fun es _ => Redirects es →
      ∃ now post, es = h.session.tokenEvents rsp.body.data name now ++ post ∧
        post.filterMap cookieOf = [] ∧
        post.filterMap locationOf = [h.loginLocation r.url.path name] := by
  rw [Program.ensures_bind, ensures_redirectWithToken]
  cases rsp.body.err with
  | some err =>
      refine (hrest true).mono ?_
      intro es _ stays there
      have other : ∀ err handler id,
          ¬Redirects (errorEvents h.lib err handler ++ [told (.closeBody id)]) :=
        fun _ _ _ => Bool.false_ne_true
      exact ((redirects_append _ _).mp there).elim (fun no => (other _ _ _ no).elim) fun there =>
        (stays.1 there).elim
  | none =>
      intro now
      refine (hrest false).mono ?_
      intro es _ stays _
      have close : ∀ id, [told (.closeBody id)].filterMap locationOf = [] := fun _ => rfl
      refine ⟨now, _, by rw [List.append_assoc, List.append_assoc], ?_, ?_⟩
      · rw [List.filterMap_append, cookies_silent (silent_redirectEvents _ _ _ _),
          List.filterMap_append, stays.2.1]
        rfl
      · rw [List.filterMap_append, List.filterMap_append, locations_redirectEvents, close,
          stays.2.2]
        rfl

theorem registerHandler_entered :
    (h.registerHandler r).Ensures fun es _ => Redirects es →
      ∃ rsp, Entered h r.url.path (r.formValue (str "name")) rsp es := by
  unfold Handler.registerHandler Handler.registerBody
  have page : ∀ userInfo : TemplateRegister,
      (renderPage (.register userInfo)).Ensures fun es _ => Stays es :=
    fun _ => renderPage_stays _
  split
  · exact (page _).mono fun es _ stays there => (stays.1 there).elim
  · simp only
    split
    · exact (page _).mono fun es _ stays there => (stays.1 there).elim
    · rw [Program.bind_assoc]
      refine entered_exchange h (makePostRequest_exchanged h r _ _ _) ?_ ?_
      · intro err
        exact (page _).mono fun es _ stays => stays.1
      · intro rsp
        simp only [Program.bind_assoc]
        apply redirectWithToken_entered h r
        intro b
        cases b with
        | false => exact stays_nil
        | true => exact page _

theorem loginHandler_entered {sp : StorageParameters} (hsp : requestParameters r = .ok sp) :
    (h.loginHandler r).Ensures fun es _ => Redirects es →
      ∃ rsp, Entered h r.url.path sp.storageName rsp es := by
  unfold Handler.loginHandler Handler.loginBody
  have page : ∀ userInfo : TemplatePassword,
      (renderPage (.login userInfo)).Ensures fun es _ => Stays es :=
    fun _ => renderPage_stays _
  split
  · exact (page _).mono fun es _ stays there => (stays.1 there).elim
  · simp only [hsp]
    split
    · exact (page _).mono fun es _ stays there => (stays.1 there).elim
    · rw [Program.bind_assoc]
      refine entered_exchange h (makePostRequest_exchanged h r _ _ _) ?_ ?_
      · intro err
        exact (page _).mono fun es _ stays => stays.1
      · intro rsp
        simp only [Program.bind_assoc]
        apply redirectWithToken_entered h r
        intro b
        cases b with
        | false => exact stays_nil
        | true => exact page _

/-- What a request that enters a storage and is redirected has done. -/
theorem Enters.entered {deployed : Bool} {request : Incoming}
    (enters : Enters deployed request name) :
    (serveHTTP h deployed request).Ensures fun t _ =>
      Redirects t → ∃ rsp, Entered h request.url.path name rsp t := by
  obtain ⟨-, -, register | login⟩ := enters
  · obtain ⟨p, reached, rfl⟩ := register
    obtain ⟨r, rfl, -, run⟩ := serveHTTP_handler h reached
    exact (run _).mpr (registerHandler_entered h r)
  · obtain ⟨sp, reached, rfl⟩ := login
    obtain ⟨r, rfl, hsp, run⟩ := serveHTTP_handler h reached
    exact (run _).mpr (loginHandler_entered h r hsp)

end Login

/-- A registration that the gateway accepts is redirected. -/
theorem register_accepted {h : Handler} (possible : ∀ url, h.lib.newRequestErr url = none)
    (token : Token) {name : Bytes} {r : Request} (posted : r.method = str "POST")
    (hname : r.formValue (str "name") = name) (named : name ≠ []) (issue : Issue)
    {Q : Trace → Unit → Prop} (all : (h.registerHandler r).Ensures Q) :
    ∃ t, Q t () ∧ Redirects t ∧ t.filterMap replyOf = [.ok (issue.reply token.bytes 0)] := by
  have quiet : ∀ value now,
      (h.session.tokenEvents value name now).filterMap replyOf = [] :=
    fun _ _ => filterMap_tokenEvents (fun _ => rfl) (fun _ => rfl) _ _ _ _
  have redirected : Redirects (redirectEvents h.lib r (slash :: name) 302) := by
    simp [Redirects, redirectEvents, posted, told, redirects]
  have silent := replies_silent (silent_redirectEvents h.lib r (slash :: name) 302)
  have closed : ∀ id, replyOf (told (.closeBody id)) = none := fun _ => rfl
  have reply : ∀ req reply, replyOf (asked name req reply) = some reply := fun _ _ => rfl
  simp only [Handler.registerHandler, Handler.registerBody, posted, hname, named,
    Handler.makePostRequest, possible, Handler.processRequest, ne_eq, not_true_eq_false, if_false,
    Program.ensures_bind, ensures_doRequest] at all
  have run := all (.ok (issue.reply token.bytes 0))
  cases issue with
  | header | both =>
      simp only [Issue.reply, token.nonempty, not_true_eq_false, if_false, not_false_eq_true, if_true,
        Program.ensures_bind, ensures_setToken, ensures_redirectWithToken, Program.pure_eq,
        Program.ensures_pure, Bool.false_eq_true] at run
      exact ⟨_, run 0 0, by simp [redirected], by simp [Issue.reply, quiet, silent, closed, reply]⟩
  | body =>
      simp only [Issue.reply, not_true_eq_false, if_false, Program.ensures_bind,
        ensures_redirectWithToken, Program.pure_eq, Program.ensures_pure, Bool.false_eq_true] at run
      exact ⟨_, run 0, by simp [redirected], by simp [Issue.reply, quiet, silent, closed, reply]⟩

end FileSharing
