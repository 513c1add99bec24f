import FileSharing.Web.Login
import FileSharing.Web.Relay

/-!
What the login and the register page say of a gateway failure. The description
of the gateway passes through a format string, so it is shown as it is only if
it is no format.
-/

namespace FileSharing
open Net Effects

def pageOf : Event world → Option Page
  | ⟨.executeTemplate page, _⟩ => some page
  | _ => none

/-- The handlers that show a failure on their page. -/
inductive Entrance where
  | login
  | register
deriving DecidableEq

namespace Entrance

def handler : Entrance → HandlerName
  | .login => .loginHandler
  | .register => .registerHandler

/-- A posted form with all that the handler asks for. -/
def Complete (r : Request) : Entrance → Prop
  | .login =>
    r.method = str "POST" ∧ (∃ sp, requestParameters r = .ok sp ∧ sp.storageName ≠ []) ∧
      r.formValue (str "password") ≠ []
  | .register => r.method = str "POST" ∧ r.formValue (str "name") ≠ []

/-- The codes that have a message of their own. -/
def fixed (code : Int) : Entrance → Option Bytes
  | .login =>
    if code = codeNotExist ∨ code = codeNotMatch then some (str "Invalid storage name or password")
    else none
  | .register =>
    if code = codeAlreadyExist then some (str "storage with this name already exists") else none

def message (e : Entrance) (err : HttpError) : Bytes := (e.fixed err.code).getD err.description

/-- The errors on the handler's own page. -/
def shown : Entrance → Page → Option (List (Bytes × Bytes))
  | .login, .login t => some t.base.errors
  | .register, .register t => some t.base.errors
  | _, _ => none

/-- The page is rendered once with the one error, and nothing else is said. -/
structure Truthful (e : Entrance) (err : HttpError) (t : Trace) : Prop where
  page : ∃ page, t.filterMap pageOf = [page] ∧
    e.shown page = some [(str "common", e.message err)]
  cookies : t.filterMap cookieOf = []
  location : t.filterMap locationOf = []
  stays : ¬Redirects t

/-- The page as the handler renders it: its message has been a format. -/
def Renders (e : Entrance) (err : HttpError) (es : Trace) : Prop :=
  ∃ page rendered, es = renderEvents page rendered ∧
    e.shown page = some [(str "common", Fmt.sprintf (e.message err))]

theorem sprintf_message (e : Entrance) (err : HttpError) :
    Fmt.sprintf (e.message err) = e.message err ↔
      (e.fixed err.code).isSome ∨ percent ∉ err.description := by
  have plain : ∀ text, e.fixed err.code = some text → percent ∉ text := by
    intro text
    cases e with
    | login =>
        rw [fixed]
        split <;> intro h <;> cases h
        decide
    | register =>
        rw [fixed]
        split <;> intro h <;> cases h
        decide
  rw [Fmt.sprintf_eq_iff, message]
  cases special : e.fixed err.code with
  | none => simp
  | some text => simpa using plain text special

section Attempt
variable (h : Handler) (r : Request)

theorem silent_renders (e : Entrance) (err : HttpError) (es : Trace) (hes : e.Renders err es) :
    Silent es := by
  obtain ⟨page, rendered, rfl, -⟩ := hes
  exact silent_renderEvents _ _

theorem registerFailure_message (err : HttpError) :
    Handler.registerFailure err = register.message err := by
  rw [Handler.registerFailure, message, fixed]
  split <;> rfl

theorem loginFailure_message (err : HttpError) : Handler.loginFailure err = login.message err := by
  rw [Handler.loginFailure, message, fixed]
  by_cases missing : err.code = codeNotExist <;> by_cases wrong : err.code = codeNotMatch <;>
    simp [missing, wrong]

theorem registerHandler_reported (complete : register.Complete r) :
    (h.registerHandler r).Ensures fun t _ => Reported h register.Renders t := by
  obtain ⟨posted, named⟩ := complete
  rw [Handler.registerHandler, Handler.registerBody, if_neg (not_not.mpr posted)]
  simp only [if_neg named, Program.bind_assoc]
  refine reported_exchange (makePostRequest_exchanged h r _ _ _) (silent_renders register) ?_
  intro err
  refine (ensures_renderPage _ _).mpr ?_
  intro rendered
  refine ⟨_, rendered, rfl, ?_⟩
  rw [← registerFailure_message]
  rfl

theorem loginHandler_reported (complete : login.Complete r) :
    (h.loginHandler r).Ensures fun t _ => Reported h login.Renders t := by
  obtain ⟨posted, ⟨sp, hsp, named⟩, secret⟩ := complete
  have blank : Handler.loginUserInfo r sp =
      { TemplatePassword.new with password := r.formValue (str "password") } := by
    simp only [Handler.loginUserInfo, if_neg named, if_neg secret]
  have clear : ¬(Handler.loginUserInfo r sp).base.errors.length > 0 := by
    rw [blank]
    exact Nat.not_lt_zero 0
  rw [Handler.loginHandler, Handler.loginBody, if_neg (not_not.mpr posted), hsp]
  simp only [if_neg clear, Program.bind_assoc]
  refine reported_exchange (makePostRequest_exchanged h r _ _ _) (silent_renders login) ?_
  intro err
  refine (ensures_renderPage _ _).mpr ?_
  intro rendered
  refine ⟨_, rendered, rfl, ?_⟩
  rw [← loginFailure_message, blank]
  rfl

/-- What a run with a failed exchange shows is the page it ends with. -/
theorem truthful_failed (e : Entrance) (err : HttpError) {pre es : Trace} (hpre : Prepared pre)
    (name : Bytes) (req : GatewayRequest) (reply : Except Bytes GatewayResponse)
    (hes : e.Renders err es) :
    e.Truthful err (pre ++ asked name req reply :: es) ↔
      Fmt.sprintf (e.message err) = e.message err := by
  obtain ⟨page, rendered, rfl, errors⟩ := hes
  have pages : (pre ++ asked name req reply :: renderEvents page rendered).filterMap pageOf =
      [page] := by
    have before : pre.filterMap pageOf = [] := filterMap_prepared (fun _ => rfl) hpre
    have after : (renderEvents page rendered).filterMap pageOf = [page] := by
      rw [renderEvents]
      cases rendered.err <;> rfl
    have request : pageOf (asked name req reply) = none := rfl
    rw [List.filterMap_append, before, List.filterMap_cons_none request, after, List.nil_append]
  constructor
  · intro truthful
    obtain ⟨page', only, shows⟩ := truthful.page
    rw [pages] at only
    rw [← (List.cons.inj only).1, errors] at shows
    simpa using shows
  · intro same
    obtain ⟨unmoved, unlocated⟩ := prepared_quiet hpre
    obtain ⟨stays, uncookied, home⟩ := (ensures_renderPage _ _).mp (renderPage_stays page) rendered
    have cookie : cookieOf (asked name req reply) = none := rfl
    have location : locationOf (asked name req reply) = none := rfl
    have request : redirects (asked name req reply) = false := rfl
    refine ⟨⟨page, pages, by rw [errors, same]⟩, ?_, ?_, ?_⟩
    · rw [List.filterMap_append, cookies_silent (silent_prepared hpre),
        List.filterMap_cons_none cookie, uncookied, List.nil_append]
    · rw [List.filterMap_append, unlocated, List.filterMap_cons_none location, home,
        List.nil_append]
    · simp [unmoved, request, stays]

end Attempt

end Entrance
end FileSharing
