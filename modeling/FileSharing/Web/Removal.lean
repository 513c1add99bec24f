import FileSharing.Web.Page
import FileSharing.Web.Parameters

/-!
Removing a file: from the page's script over the form and the route to the
gateway. The handler checks the form field `fileName` and forwards the file of
the route, and no remove route has one.
-/

namespace FileSharing
open Net Effects

def exchangeOf : Event world → Option (Bytes × GatewayRequest × Except Bytes GatewayResponse)
  | ⟨.doRequest name req, reply⟩ => some (name, req, reply)
  | _ => none

/-- A request to remove the file. -/
structure Removes (h : Handler) (storage file : Bytes) (isPermanent : Bool) (req : GatewayRequest) :
    Prop where
  url : req.url = h.makeURL (str "remove")
  storage : req.fields.all (str "storage") = [storage]
  file : req.fields.all (str "file") = [file]
  isPermanent : req.fields.all (str "permanent") = if isPermanent then [str "true"] else []

/-- A post of the file's name removes that file: the gateway gets one request to
remove it, and the success status tells that it was accepted. -/
def HandlerRemoves (storage file : Bytes) (isPermanent : Bool) : Prop :=
  ∀ (h : Handler) (deployed : Bool) (request : Incoming),
    h.lib.newRequestErr (h.makeURL (str "remove")) = none → request.method = str "POST" →
    request.url.path = pathOf (area storage isPermanent ++ [str "remove"]) true →
    request.form.get (str "fileName") = file →
    (serveHTTP h deployed request).Ensures fun t _ => ∃ name req reply,
      t.filterMap exchangeOf = [(name, req, reply)] ∧ Removes h storage file isPermanent req ∧
        ((response t).status = some 200 → Accepted reply)

/-- Every way to remove a file from the page posts its name. -/
def PagePosts (file : Bytes) : Prop :=
  ∀ removal : Removal, (removal.form file).get (str "fileName") = file

theorem removedfile_posts (file : Bytes) :
    (Removal.removedfile.form file).get (str "fileName") = [] := by
  simp [Removal.form, removeFileRequest, JsValue.param, Values.get]

/-- A post to a remove path runs the remove handler, without a file, or the login
handler. -/
theorem remove_dispatch (request : Incoming) {storage : Bytes} (seg : IsSegment storage)
    (isPermanent : Bool) (posted : request.method = str "POST")
    (hpath : request.url.path = pathOf (area storage isPermanent ++ [str "remove"]) true) :
    ∃ handler sp, (handler = .removeHandler ∨ handler = .loginHandler) ∧ sp.fileName = [] ∧
      dispatch false request = .endpoint (.handler handler) (.ok sp) := by
  have proper : ∀ s ∈ area storage isPermanent ++ [str "remove"], IsSegment s := by
    have words : IsSegment (str "permanent") ∧ IsSegment (str "remove") := by decide
    intro s hs
    cases isPermanent <;>
      simp only [area, if_true, Bool.false_eq_true, if_false, List.cons_append, List.nil_append,
        List.mem_cons, List.not_mem_nil, or_false] at hs <;>
      grind
  rw [dispatch_expected request proper true hpath, posted]
  cases isPermanent with
  | true => exact ⟨.removeHandler, ⟨storage, false, true, []⟩, .inl rfl, rfl, rfl⟩
  | false =>
      by_cases login : storage = str "login"
      · subst login
        exact ⟨.loginHandler, ⟨str "remove", true, false, []⟩, .inr rfl, rfl, rfl⟩
      · refine ⟨.removeHandler, ⟨storage, false, false, []⟩, .inl rfl, rfl, ?_⟩
        simp +decide [expected, decision, area, postCases, operation, login, Answer.ownForm,
          Answer.parameters, Endpoint.isPublic]

/-- Whatever the remove handler or the login handler sends, it removes no file
with a name. -/
theorem sends_no_file {h : Handler} {r : Request} {handler : HandlerName} {sp : StorageParameters}
    (which : handler = .removeHandler ∨ handler = .loginHandler)
    (hsp : requestParameters r = .ok sp) (none : sp.fileName = []) {name : Bytes}
    {req : GatewayRequest} (sent : h.sends r handler name req) {storage file : Bytes}
    {isPermanent : Bool} (removes : Removes h storage file isPermanent req) : file = [] := by
  cases which with
  | inl remove =>
      subst remove
      obtain ⟨-, sp', hsp', rfl, rfl⟩ := sent
      obtain rfl := requestParameters_unique hsp hsp'
      have files := removes.file
      rw [fields_postRequest, all_parseQuery_encode, all_values] at files
      simpa +decide [none] using files.symm
  | inr login =>
      subst login
      obtain ⟨-, sp', -, rfl, rfl⟩ := sent
      have url := removes.url
      simp +decide [Handler.postRequest, Handler.makeURL] at url

theorem not_handlerRemoves {storage file : Bytes} (seg : IsSegment storage) (named : file ≠ [])
    (isPermanent : Bool) : ¬HandlerRemoves storage file isPermanent := by
  intro removes
  let request : Incoming :=
    { method := str "POST"
      url := ⟨pathOf (area storage isPermanent ++ [str "remove"]) true, []⟩
      cookies := [], form := [(str "fileName", file)], multipart := .error [] }
  have form : request.form.get (str "fileName") = file := by simp [request, Values.get]
  obtain ⟨handler, sp, which, none, reached⟩ := remove_dispatch request seg isPermanent rfl rfl
  obtain ⟨r, -, hsp, run⟩ := serveHTTP_handler Handler.plain reached
  have promised := (run _).mp (removes Handler.plain false request rfl rfl rfl form)
  obtain ⟨t, -, -, ⟨name, req, reply, once, removes, -⟩, ledger⟩ :=
    (promised.and (run_ledger Handler.plain r handler)).exists
  have member : (name, req, reply) ∈ t.filterMap exchangeOf := by
    rw [once]
    exact List.mem_singleton_self _
  obtain ⟨e, he, hx⟩ := List.mem_filterMap.mp member
  have event : e = asked name req reply := by
    unfold exchangeOf at hx
    split at hx
    · cases hx
      rfl
    · cases hx
  rw [event] at he
  exact named (sends_no_file which hsp none (ledger.sent he) removes)

end FileSharing
