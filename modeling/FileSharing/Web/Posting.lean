import FileSharing.Web.Addresses
import FileSharing.Web.OneResponse
import FileSharing.Web.Removal

/-!
What the script of view.html posts: the handlers that its targets lead to, and what
comes of a post in the service and at the gateway.
-/

namespace FileSharing
open Net Effects

/-- The script is told of a success. -/
def ajaxSucceeds (status : Nat) : Bool := (200 ≤ status ∧ status < 300) ∨ status = 304

/-- The gateway is asked once, and the script is told of a success exactly if it
accepted. -/
def AsksOnce (storage : Bytes) (asks : GatewayRequest → Prop) (t : Trace) : Prop :=
  ∃ req reply, t.filterMap exchangeOf = [(storage, req, reply)] ∧ asks req ∧
    ∃ status, (response t).status = some status ∧ (ajaxSucceeds status = true ↔ Accepted reply)

/-- The gateway is not asked, and the script is told of a failure. -/
def Declines (t : Trace) : Prop :=
  t.filterMap exchangeOf = [] ∧ ∃ status, (response t).status = some status ∧
    ajaxSucceeds status = false

theorem declines_error (h : Handler) (err : HttpError) (handler : Bytes) :
    (h.error err handler).Ensures fun t _ => Declines t := by
  refine (ensures_error h _ err handler).mpr ⟨rfl, 400, ?_, by decide⟩
  rw [response_status]
  rfl

/-- A post that asks the gateway for something and has no more to say. -/
theorem asksOnce_post (h : Handler) (r : Request) (storage endpoint : Bytes) (values : Values)
    (handler : Bytes) (possible : h.lib.newRequestErr (h.makeURL endpoint) = none) :
    (h.makePostRequest r storage endpoint values >>= fun
      | .error httpErr => h.error httpErr handler
      | .ok rsp => deferClose rsp (tell (.writeHeader 200))).Ensures fun t _ =>
        AsksOnce storage (· = h.postRequest r storage endpoint values) t := by
  let req := h.postRequest r storage endpoint values
  have quiet : ∀ token now,
      (h.session.tokenEvents token storage now).filterMap exchangeOf = [] :=
    fun _ _ => filterMap_tokenEvents (fun _ => rfl) (fun _ => rfl) _ _ _ _
  have unstated : ∀ token now,
      (h.session.tokenEvents token storage now).findSome? statusOf = none :=
    fun token now => (mute_tokenEvents h.session token storage now).1.silence.2.1
  have failed : ∀ reply, ¬Accepted reply →
      (h.error (h.replyError reply) handler).Ensures fun es _ =>
        AsksOnce storage (· = req) (asked storage req reply :: es) := by
    intro reply refused
    refine (ensures_error h _ _ _).mpr ⟨req, reply, rfl, rfl, 400, ?_, ?_⟩
    · rw [response_status]
      rfl
    · exact iff_of_false (by decide) refused
  have accepted : ∀ rsp : GatewayResponse, rsp.statusCode = 200 → ∀ cookies : Trace,
      cookies.filterMap exchangeOf = [] → cookies.findSome? statusOf = none →
      AsksOnce storage (· = req) (asked storage req (.ok rsp) :: cookies ++
        [told (.writeHeader 200), told (.closeBody rsp.body.id)]) := by
    intro rsp ok cookies unasked unset
    refine ⟨req, .ok rsp, ?_, rfl, 200, ?_, ?_⟩
    · have here : exchangeOf (asked storage req (.ok rsp)) = some (storage, req, .ok rsp) := rfl
      rw [List.filterMap_append, List.filterMap_cons_some here, unasked]
      rfl
    · rw [response_status, List.cons_append, List.findSome?_cons, List.findSome?_append, unset]
      rfl
    · exact iff_of_true (by decide) ⟨rsp, rfl, ok⟩
  simp only [Handler.makePostRequest, possible, Program.ensures_bind]
  refine (ensures_processRequest h req storage _).mpr ?_
  intro reply
  cases reply with
  | error err => exact failed (.error err) (not_accepted_error err)
  | ok rsp =>
      by_cases ok : rsp.statusCode = 200
      · by_cases token : rsp.xToken = []
        · simp only [ok, token, ne_eq, not_true_eq_false, if_false, ensures_deferClose,
            ensures_tell]
          exact accepted rsp ok [] rfl rfl
        · simp only [ok, token, ne_eq, not_true_eq_false, if_false, not_false_eq_true, if_true,
            ensures_deferClose, ensures_tell]
          intro now
          exact accepted rsp ok _ (quiet _ now) (unstated _ now)
      · simp only [ok, ne_eq, not_false_eq_true, if_true]
        exact failed (.ok rsp) (not_accepted_ok ok)

section Target
variable {deployed : Bool} {storage : Bytes} {isPermanent : Bool} {page : Target}

theorem segment_area (seg : IsSegment storage) : ∀ s ∈ area storage isPermanent, IsSegment s := by
  have word : IsSegment (str "permanent") := by decide
  intro s hs
  cases isPermanent with
  | false => exact List.mem_singleton.mp hs ▸ seg
  | true =>
      cases List.mem_pair.mp hs with
      | inl same => exact same ▸ seg
      | inr same => exact same ▸ word

/-- The operations are plain words. -/
theorem operation_word {op : Bytes} {handler : HandlerName} (hop : operation op = some handler) :
    IsSegment op ∧ escapePath op = op ∧ colon ∉ op := by
  have words : ∀ op ∈ [str "upload", str "remove", str "shareText"],
      IsSegment op ∧ escapePath op = op ∧ colon ∉ op := by
    decide
  unfold operation at hop
  split at hop
  · rename_i upload
    exact words op (by simp [upload])
  · split at hop
    · rename_i remove
      exact words op (by simp [remove])
    · split at hop
      · rename_i shareText
        exact words op (by simp [shareText])
      · cases hop

/-- The targets of the posts, where the router has the handlers for them. -/
theorem visit_operation {op : Bytes} {handler : HandlerName} (hop : operation op = some handler)
    (seg : IsSegment storage) (free : isPermanent = true ∨ storage ≠ str "login")
    (hpath : page.path = escapePath (pathOf (area storage isPermanent) true)) {request : Incoming}
    (read : visit (str "POST") (follow page (op ++ [slash])) = some request)
    (cookies : List (Bytes × Bytes)) (form : Values) :
    dispatch deployed { request with cookies, form } =
      .endpoint (.handler handler) (.ok ⟨storage, false, isPermanent, []⟩) := by
  obtain ⟨word, bare, uncolon⟩ := operation_word hop
  have nonempty : area storage isPermanent ≠ [] := by
    cases isPermanent <;> exact List.cons_ne_nil _ _
  have proper : ∀ s ∈ area storage isPermanent ++ [op], IsSegment s := by
    intro s hs
    cases List.mem_append.mp hs with
    | inl hs => exact segment_area seg s hs
    | inr hs => exact List.mem_singleton.mp hs ▸ word
  obtain ⟨-, path⟩ := follow_child (segment_area seg) nonempty hpath word bare uncolon true
  have decoded := escapePath_unescape (pathOf (area storage isPermanent ++ [op]) true)
  rw [← path] at decoded
  obtain ⟨request', read', posted, reached⟩ := visit_decoded (str "POST") decoded
  obtain rfl := Option.some_inj.mp (read'.symm.trans read)
  have decided : decision (str "POST") (area storage isPermanent ++ [op]) =
      some ⟨.handler handler, storage, isPermanent, []⟩ := by
    cases isPermanent with
    | true => exact decision_iff.mpr (.operationPermanent storage hop)
    | false =>
        have other := free.resolve_left Bool.false_ne_true
        exact decision_iff.mpr (.operation other hop)
  have unmetered : isMetrics deployed (area storage isPermanent ++ [op]) = false := by
    cases isPermanent <;> simp [isMetrics, area]
  let request : Incoming := { request' with cookies, form }
  have hrequest : request.url.path = pathOf (area storage isPermanent ++ [op]) true := reached
  have ha : decision request.method (area storage isPermanent ++ [op]) = _ := posted ▸ decided
  rw [dispatch_decided proper hrequest ha unmetered]
  obtain rfl | rfl | rfl := operation_handler hop <;> rfl

end Target
end FileSharing
