import FileSharing.Web.Listing
import Mathlib.Data.List.Sort

/-!
login.html and register.html, from their bodies on: what a browser reads of a page
that tells the errors of a request and offers the name of the storage again.
-/

namespace FileSharing
open Net Effects Html

/-- The texts of the errors in the order of their keys. -/
def TemplateBase.messages (t : TemplateBase) : List Bytes :=
  (t.errors.insertionSort fun a b => a.1 ≤ b.1).map (·.2)

def formHead : Bytes :=
  str "<body>\t" ++ tabs 2 ++ str "<div class=\"container\">" ++ tabs 3 ++
    str "<div class=\"row\">" ++ tabs 4 ++ str "<div class=\"col-md-4 col-md-offset-4\">" ++ tabs 5 ++
    str "<div class=\"panel panel-default\">" ++ tabs 6 ++ str "<div class=\"panel-heading\">" ++
    tabs 7 ++ str "<h3 class=\"panel-title\">Please sign in</h3>" ++ tabs 6 ++ str "</div>" ++
    tabs 6 ++ str "<div class=\"panel-body\">" ++ tabs 7 ++
    str "<form accept-charset=\"UTF-8\" role=\"form\" method=\"post\">" ++ tabs 8 ++
    str "<fieldset>" ++ tabs 9 ++ str "<div class=\"form-group\">" ++ tabs 10

def passwordField : Bytes :=
  str "<input class=\"form-control\" placeholder=\"Password\" name=\"password\" " ++
    str "type=\"password\" value=\"\">" ++ tabs 9 ++ str "</div>"

/-- The end of the form, with the label of its button. -/
def formTail (label : Bytes) : Bytes :=
  tabs 9 ++ str "<input class=\"btn btn-lg btn-success btn-block\" type=\"submit\" value=\"" ++
    label ++ str "\">" ++ tabs 8 ++ str "</fieldset>" ++ tabs 7 ++ str "</form>" ++ tabs 6 ++
    str "</div>" ++ tabs 5 ++ str "</div>" ++ tabs 4 ++ str "</div>" ++ tabs 3 ++ str "</div>" ++
    tabs 2 ++ str "</div>" ++ tabs 2

def message (value : Bytes) : Bytes :=
  str " <p align=\"center\">" ++ htmlReplacer value ++ str "</p> "

def pageTail : Bytes := tabs 1 ++ str "</body>" ++ str "\n</html>"

def TemplatePassword.body (t : TemplatePassword) : Bytes :=
  formHead ++ passwordField ++ formTail (str "Login") ++ t.base.messages.flatMap message ++ pageTail

/-- The form of register.html up to the value in the field of the name, and from there
on. -/
def registerHead : Bytes :=
  formHead ++
    str "<input class=\"form-control\" placeholder=\"Storage name\" name=\"name\" type=\"text\" " ++
    str "value=\""

def registerTail : Bytes :=
  tabs 9 ++ str "</div>" ++ tabs 9 ++ str "<div class=\"form-group\">" ++ tabs 10 ++ passwordField ++
    formTail (str "Register")

def TemplateRegister.body (t : TemplateRegister) : Bytes :=
  registerHead ++ htmlReplacer t.storageName ++ str "\">" ++ registerTail ++
    t.base.messages.flatMap message ++ pageTail

/-- The field of the name, with what is offered in it. -/
def nameField (value : Bytes) : Token :=
  .start (str "input") [(str "class", str "form-control"), (str "placeholder", str "Storage name"),
    (str "name", str "name"), (str "type", str "text"),
    (str "value", shown (normalizeNewlines value))]

def messageTokens (value : Bytes) : List Token :=
  .char space :: .start (str "p") [(str "align", str "center")] ::
    text (shown (normalizeNewlines value)) ++ [.close (str "p"), .char space]

theorem reads_messages (messages : List Bytes) {rest : Bytes} {ts : List Token}
    (behind : Reads .data (normalizeNewlines rest) ts .data) :
    Reads .data (normalizeNewlines (messages.flatMap message ++ rest))
      (messages.flatMap messageTokens ++ ts) .data := by
  have opens : carriageReturn ∉ str " <p align=\"center\">" ∧
      Reads .data (str " <p align=\"center\">")
        [.char space, .start (str "p") [(str "align", str "center")]] .data := by
    decide
  have closes : carriageReturn ∉ str "</p> " ∧ str "</p> " = less :: str "/p> " ∧
      Reads .data (str "</p> ") [.close (str "p"), .char space] .data := by
    decide
  induction messages with
  | nil => exact behind
  | cons value messages ih =>
      have normal : normalizeNewlines ((value :: messages).flatMap message ++ rest) =
          str " <p align=\"center\">" ++ (htmlReplacer (normalizeNewlines value) ++ (str "</p> " ++
            normalizeNewlines (messages.flatMap message ++ rest))) := by
        rw [List.flatMap_cons, message, ← normalizeNewlines_plain closes.1, closes.2.1,
          List.cons_append, ← normalizeNewlines_hole opens.1 value (by decide)]
        simp only [List.append_assoc, List.cons_append]
      rw [normal, List.flatMap_cons, messageTokens]
      have both := opens.2.append ((reads_text (normalizeNewlines value)).append
        (closes.2.2.append ih))
      simpa only [List.append_assoc, List.cons_append, List.nil_append] using both

/-- The parts of the two pages that no request decides. -/
structure FormTokens where
  before : List Token
  between : List Token
  after : List Token

def FormTokens.login (parts : FormTokens) (t : TemplatePassword) : List Token :=
  parts.before ++ t.base.messages.flatMap messageTokens ++ parts.after

def FormTokens.register (parts : FormTokens) (t : TemplateRegister) : List Token :=
  parts.before ++ nameField t.storageName :: parts.between ++
    t.base.messages.flatMap messageTokens ++ parts.after

theorem reads_pageTail :
    Reads .data (normalizeNewlines pageTail)
      (text (tabs 1) ++ [.close (str "body"), .char lineFeed, .close (str "html")]) .data := by
  decide

theorem tokens_login : ∃ parts : FormTokens, ∀ t : TemplatePassword,
    Html.tokens t.body = some (parts.login t) := by
  have front : carriageReturn ∉ formHead ++ passwordField ++ formTail (str "Login") ∧
      (run .data (formHead ++ passwordField ++ formTail (str "Login"))).map (·.2) = some .data := by
    decide +kernel
  obtain ⟨before, reads⟩ := reads_of_run front.2
  let after := text (tabs 1) ++ [.close (str "body"), .char lineFeed, .close (str "html")]
  refine ⟨⟨before, [], after⟩, fun t => Reads.tokens ?_⟩
  rw [TemplatePassword.body, List.append_assoc, normalizeNewlines_plain front.1, FormTokens.login,
    List.append_assoc before]
  exact Reads.append reads (reads_messages t.base.messages reads_pageTail)

theorem tokens_register : ∃ parts : FormTokens, ∀ t : TemplateRegister,
    Html.tokens t.body = some (parts.register t) := by
  let attributes : Attributes :=
    [(str "class", str "form-control"), (str "placeholder", str "Storage name"),
      (str "name", str "name"), (str "type", str "text")]
  have front : carriageReturn ∉ registerHead ∧
      (run .data registerHead).map (·.2) =
        some (.value ⟨str "input", attributes, str "value", []⟩) := by
    decide +kernel
  have middle : carriageReturn ∉ str "\">" ++ registerTail ∧
      (run .data registerTail).map (·.2) = some .data := by
    decide +kernel
  have ends : str "\">" = [quote, greater] := by decide
  obtain ⟨before, reads⟩ := reads_of_run front.2
  obtain ⟨between, reads'⟩ := reads_of_run middle.2
  let after := text (tabs 1) ++ [.close (str "body"), .char lineFeed, .close (str "html")]
  refine ⟨⟨before, between, after⟩, fun t => Reads.tokens ?_⟩
  have normal : normalizeNewlines t.body =
      registerHead ++ (htmlReplacer (normalizeNewlines t.storageName) ++ (str "\">" ++ (registerTail ++
        normalizeNewlines (t.base.messages.flatMap message ++ pageTail)))) := by
    rw [← List.append_assoc (str "\">"), ← normalizeNewlines_plain middle.1, ends,
      List.cons_append, List.cons_append, ← normalizeNewlines_hole front.1 _ (by decide),
      TemplateRegister.body, ends]
    simp only [List.append_assoc, List.cons_append, List.nil_append]
  have value := reads_value ⟨str "input", attributes, str "value", []⟩
    (normalizeNewlines t.storageName)
  have closes := @reads_close (str "input") (by decide) attributes (str "value")
    (shown (normalizeNewlines t.storageName))
  have all := Reads.append reads (value.append (closes.append (Reads.append reads'
    (reads_messages t.base.messages reads_pageTail))))
  rw [normal]
  simpa only [FormTokens.register, nameField, attributes, List.append_assoc, List.cons_append,
    List.nil_append] using all

/-! What the handlers put on their pages. -/

/-- The name that a posted form has asked for. -/
def askedName (r : Request) : Bytes :=
  if r.method = str "POST" then r.formValue (str "name") else []

/-- Every page of a run is one of these. -/
def Offers (P : Page → Prop) (t : Trace) : Prop := ∀ page ∈ pages t, P page

section Offers
variable {P : Page → Prop}

theorem offers_append (t t' : Trace) : Offers P (t ++ t') ↔ Offers P t ∧ Offers P t' := by
  simp only [Offers, pages, List.filterMap_append, List.forall_mem_append]

theorem offers_exchange {h : Handler} {name : Bytes} {sent : GatewayRequest → Prop} {es : Trace}
    {a : Except HttpError GatewayResponse} (ex : Exchanged h name sent es a) : Offers P es := by
  have none : pages es = [] := by
    cases ex with
    | unsent err hpre => exact filterMap_prepared (fun _ => rfl) hpre
    | refused hpre hreq hreply =>
        rw [pages, List.filterMap_append, filterMap_prepared (fun _ => rfl) hpre]
        rfl
    | accepted hpre hreq status hcookies =>
        rw [pages, List.filterMap_append, filterMap_prepared (fun _ => rfl) hpre,
          List.filterMap_cons_none rfl, filterMap_refreshed (fun _ => rfl) (fun _ => rfl) hcookies]
        rfl
  simp [Offers, none]

theorem offers_renderPage {page : Page} (offered : P page) :
    (renderPage page).Ensures fun es _ => Offers P es := by
  rw [ensures_renderPage]
  intro rendered
  have only : pages (renderEvents page rendered) = [page] := by
    rw [renderEvents]
    cases rendered.err <;> rfl
  simpa [Offers, only] using offered

theorem pages_redirectEvents (lib : Stdlib) (r : Request) (url : Bytes) (code : Nat) :
    pages (redirectEvents lib r url code) = [] := by
  by_cases get : r.method = str "GET" <;> by_cases head : r.method = str "HEAD" <;>
    simp only [redirectEvents, get, head, or_true, true_or, or_self, if_true, if_false] <;> rfl

theorem offers_redirectWithToken (h : Handler) (r : Request) (rsp : GatewayResponse)
    (name label : Bytes) :
    (h.redirectWithToken r rsp name label).Ensures fun es _ => Offers P es := by
  rw [ensures_redirectWithToken]
  cases err : rsp.body.err with
  | some err => exact fun _ none => (List.not_mem_nil none).elim
  | none =>
      intro now
      have token : pages (h.session.tokenEvents rsp.body.data name now) = [] :=
        filterMap_tokenEvents (fun _ => rfl) (fun _ => rfl) _ _ _ _
      refine (offers_append _ _).mpr ⟨(offers_append _ _).mpr ⟨?_, ?_⟩, ?_⟩
      · simp [Offers, token]
      · simp [Offers, pages_redirectEvents]
      · exact fun _ none => (List.not_mem_nil none).elim

/-- A token, or the page if it cannot be read. -/
theorem offers_token (h : Handler) (r : Request) (rsp : GatewayResponse) (name label : Bytes)
    {page : Page} (offered : P page) :
    (h.redirectWithToken r rsp name label >>= fun render =>
      if render then renderPage page else pure ()).Ensures fun es _ => Offers P es := by
  rw [Program.ensures_bind]
  refine (@offers_redirectWithToken P h r rsp name label).mono ?_
  intro es render before
  cases render with
  | false => simpa using before
  | true =>
      refine (offers_renderPage offered).mono ?_
      intro es' _ behind
      exact (offers_append es es').mpr ⟨before, behind⟩

/-- A request to the gateway, then what its reply leads to. -/
theorem offers_asked {α : Type} {h : Handler} {name : Bytes} {sent : GatewayRequest → Prop}
    {p : Act (Except HttpError GatewayResponse)} {next : Except HttpError GatewayResponse → Act α}
    (exchanged : p.Ensures (Exchanged h name sent))
    (follows : ∀ a, (next a).Ensures fun es _ => Offers P es) :
    (p >>= next).Ensures fun es _ => Offers P es := by
  rw [Program.ensures_bind]
  refine exchanged.mono ?_
  intro es a ex
  refine (follows a).mono ?_
  intro es' _ behind
  exact (offers_append es es').mpr ⟨offers_exchange ex, behind⟩

end Offers

theorem registerHandler_offers (h : Handler) (r : Request) :
    (h.registerHandler r).Ensures fun t _ =>
      Offers (fun page => ∃ form, page = .register form ∧ form.storageName = askedName r) t := by
  unfold Handler.registerHandler Handler.registerBody
  split
  · rename_i notPosted
    exact offers_renderPage ⟨_, rfl, (if_neg notPosted).symm⟩
  · rename_i posted
    have same : r.formValue (str "name") = askedName r := (if_pos (not_not.mp posted)).symm
    simp only
    split
    · exact offers_renderPage ⟨_, rfl, same⟩
    · rw [Program.bind_assoc]
      refine offers_asked (makePostRequest_exchanged h r _ _ _) ?_
      intro a
      cases a with
      | error err => exact offers_renderPage ⟨_, rfl, same⟩
      | ok rsp =>
          simp only [Program.bind_assoc, Program.pure_eq, Program.pure_bind]
          apply offers_token h r rsp
          exact ⟨_, rfl, same⟩

theorem loginHandler_offers (h : Handler) (r : Request) :
    (h.loginHandler r).Ensures fun t _ => Offers (fun page => ∃ form, page = .login form) t := by
  unfold Handler.loginHandler Handler.loginBody
  split
  · exact offers_renderPage ⟨_, rfl⟩
  · cases requestParameters r with
    | error err =>
        simp only [Program.bind_assoc, Program.ensures_bind, ensures_error, Program.pure_eq,
          Program.ensures_pure, if_true, List.nil_append]
        have page : ∃ form, Page.login .new = .login form := ⟨_, rfl⟩
        refine (@offers_renderPage (fun page => ∃ form, page = .login form) _ page).mono ?_
        intro es _ behind
        refine (offers_append _ es).mpr ⟨?_, behind⟩
        exact fun _ none => (List.not_mem_nil none).elim
    | ok sp =>
        simp only
        split
        · exact offers_renderPage ⟨_, rfl⟩
        · rw [Program.bind_assoc]
          refine offers_asked (makePostRequest_exchanged h r _ _ _) ?_
          intro a
          cases a with
          | error err => exact offers_renderPage ⟨_, rfl⟩
          | ok rsp =>
              simp only [Program.bind_assoc, Program.pure_eq, Program.pure_bind]
              apply offers_token h r rsp
              exact ⟨_, rfl⟩

end FileSharing
