import FileSharing.Web.Isolation
import FileSharing.Web.Login

/-!
Session continuity: what the cookies of a login leave in the browser, and with
what authorization the next request for the storage is forwarded.
-/

namespace FileSharing
open Net Effects

/-- The cookies a browser holds. A cookie whose name is no HTTP token is never
emitted, so that none is held. -/
structure Jar where
  cookies : List (Bytes × Bytes)
  named : ∀ c ∈ cookies, isToken c.1 = true

/-- A later cookie replaces the one of the same name. -/
def Jar.set (jar : Jar) (c : Cookie) : Jar :=
  if hc : isToken c.name = true then
    { cookies := (c.name, c.value) :: jar.cookies.filter fun held => held.1 ≠ c.name
      named := by
        intro held member
        cases List.mem_cons.mp member with
        | inl new => rw [new]; exact hc
        | inr old => exact jar.named held (List.mem_filter.mp old).1 }
  else jar

def Jar.receive (jar : Jar) (t : Trace) : Jar := (t.filterMap cookieOf).foldl Jar.set jar

def Jar.value? (jar : Jar) (name : Bytes) : Option Bytes :=
  (jar.cookies.find? fun held => held.1 = name).map (·.2)

/-- After a login that was redirected, every request for the storage is
forwarded with the token of the login. -/
def Continues (name : Bytes) (token : Token) (issue : Issue) : Prop :=
  ∀ (h : Handler) (deployed : Bool) (jar : Jar) (request : Incoming),
    Enters deployed request name → request.cookies = jar.cookies →
    (serveHTTP h deployed request).Ensures fun t _ =>
      (∀ reply ∈ t.filterMap replyOf, ∃ id, reply = .ok (issue.reply token.bytes id)) →
      Redirects t →
      ∀ (next : Incoming) (e : Endpoint) (sp : StorageParameters),
        dispatch deployed next = .endpoint e (.ok sp) → sp.storageName = name →
        next.cookies = (jar.receive t).cookies →
        (serveHTTP h deployed next).Ensures fun t' _ =>
          ∀ n req reply, asked n req reply ∈ t' →
            req.authorization = some (str "Bearer " ++ token.bytes)

section Jar

theorem set_value (jar : Jar) (c : Cookie) (name : Bytes) :
    (jar.set c).value? name =
      if isToken c.name = true ∧ c.name = name then some c.value else jar.value? name := by
  by_cases token : isToken c.name = true
  · by_cases same : c.name = name
    · subst same
      simp [Jar.set, Jar.value?, token]
    · have others : (jar.cookies.filter fun held => held.1 ≠ c.name).find?
          (fun held => held.1 = name) = jar.cookies.find? fun held => held.1 = name := by
        rw [List.find?_filter]
        congr 1
        funext held
        by_cases here : held.1 = name
        · simp [here, Ne.symm same]
        · simp [here]
      simp only [Jar.set, token, dif_pos, Jar.value?, same, and_false, if_false]
      rw [List.find?_cons_of_neg (by simpa using same), others]
  · simp [Jar.set, token]

theorem value_none (jar : Jar) {name : Bytes} (h : isToken name = false) :
    jar.value? name = none := by
  rw [Jar.value?, Option.map_eq_none_iff, List.find?_eq_none]
  intro held member e
  have named := jar.named held member
  rw [of_decide_eq_true e, h] at named
  cases named

/-- What the browser holds for the storage afterwards: the body of the reply,
unless the name of the storage cannot be the name of a cookie. -/
theorem Entered.value {h : Handler} {path name : Bytes} {rsp : GatewayResponse} {t : Trace}
    (entered : Entered h path name rsp t) (jar : Jar) :
    (jar.receive t).value? name =
      if isToken name then some (sanitizeCookieValue rsp.body.data) else none := by
  obtain ⟨before, now, cookies, none_before⟩ := entered.cookies
  rw [Jar.receive, cookies, List.foldl_append, cookies_tokenEvents]
  cases hname : isToken name with
  | true =>
      simp only [if_true, List.foldl_cons, List.foldl_nil]
      rw [set_value]
      simp [CookieSession.cookie, hname]
  | false => simp [none_before hname, value_none jar hname]

end Jar

section Next
variable {h : Handler} {name : Bytes} {sp : StorageParameters}

theorem authorization_jar {r : Request} {jar : Jar} (held : r.cookies = jar.cookies)
    (hname : name ≠ []) {value : Bytes} (hvalue : (jar.value? name).getD [] = value) :
    Handler.authorization r name =
      if value ≠ [] then some (str "Bearer " ++ value) else none := by
  have token : Handler.sessionToken r name = value := by
    rw [Handler.sessionToken, CookieSession.getToken, if_neg hname, held]
    exact hvalue
  rw [Handler.authorization, token]

/-- A request that is dispatched to a storage is forwarded with the cookie the
browser holds for it. -/
theorem forwarded {deployed : Bool} {next : Incoming} {e : Endpoint} {jar : Jar}
    (reached : dispatch deployed next = .endpoint e (.ok sp)) (named : sp.storageName ≠ [])
    (held : next.cookies = jar.cookies) {value : Bytes}
    (hvalue : (jar.value? sp.storageName).getD [] = value) :
    (serveHTTP h deployed next).Ensures fun t _ => ∀ n req reply, asked n req reply ∈ t →
      req.authorization = if value ≠ [] then some (str "Bearer " ++ value) else none := by
  obtain ⟨trailing, a, -, ha, -, rfl, hp⟩ := dispatch_endpoint reached
  have own : sp = a.parameters := Except.ok.inj hp
  have storage : a.storage ≠ [] := by simpa [own, Answer.parameters] using named
  obtain ⟨-, handler, endpoint, other⟩ := decision_storage ha storage
  rw [endpoint] at reached
  obtain ⟨r, hr, hsp, run⟩ := serveHTTP_handler h reached
  rw [run]
  refine (run_ledger h r handler).mono ?_
  intro t _ ledger n req reply he
  have sent := ledger.sent he
  rw [sends_authorization h r sent, sends_storage other hsp sent]
  exact authorization_jar (by rw [← held, ← hr]) named hvalue

end Next

section Continues
variable {name : Bytes} (token : Token) {issue : Issue}

theorem continues_of_token (hname : isToken name = true) (hissue : issue ≠ .header) :
    Continues name token issue := by
  intro h deployed jar request enters held
  have named : name ≠ [] := by
    rintro rfl
    cases hname
  refine (enters.entered h).mono ?_
  intro t _ entered replied there next e sp reached hsp cookies
  obtain ⟨rsp, entered⟩ := entered there
  have value := entered.value jar
  obtain ⟨id, reply⟩ := replied _ entered.replied
  have data : rsp.body.data = token.bytes := by
    rw [Except.ok.inj reply]
    cases issue with
    | header => exact absurd rfl hissue
    | body | both => rfl
  rw [hname, if_pos rfl, data, sanitizeCookieValue_legal token.legal] at value
  have hvalue : ((jar.receive t).value? sp.storageName).getD [] = token.bytes := by
    rw [hsp, value]
    rfl
  refine (forwarded reached (by rwa [hsp]) cookies hvalue).mono ?_
  intro t' _ all n req reply he
  rw [all n req reply he, if_pos token.nonempty]

/-- No request is dispatched to a storage whose name is no segment. -/
theorem continues_of_unreachable (unreachable : ¬IsSegment name) : Continues name token issue := by
  intro h deployed jar request enters held
  rw [Program.ensures_iff_runs]
  intro t _ _ _ _ next e sp reached hsp
  obtain ⟨trailing, a, -, ha, -, -, hp⟩ := dispatch_endpoint reached
  have own : a.storage = name := by
    rw [← hsp, Except.ok.inj hp]
    rfl
  have member := (decision_storage ha (by rw [own]; exact enters.1)).1
  rw [own] at member
  exact absurd (isSegment_of_mem_segments member) unreachable

/-- Sharing a text sends a request. -/
theorem shareText_asks {r : Request} {sp : StorageParameters} (title : r.formValue (str "title") ≠ [])
    (body : r.formValue (str "body") ≠ []) (hsp : requestParameters r = .ok sp)
    {Q : Trace → Unit → Prop} (all : (Handler.plain.shareTextHandler r).Ensures Q) :
    ∃ t req, Q t () ∧ asked sp.storageName req (.error []) ∈ t := by
  have possible : ∀ url, Handler.plain.lib.newRequestErr url = none := fun _ => rfl
  simp only [Handler.shareTextHandler, title, body, hsp, or_self, if_false,
    Handler.makePostRequest, possible, Handler.processRequest, Program.ensures_bind,
    ensures_doRequest] at all
  have run := all (.error [])
  simp only [Program.pure_eq, Program.ensures_pure, ensures_error] at run
  exact ⟨_, _, run, List.mem_append_left _ (List.mem_append_left _ (List.mem_singleton.mpr rfl))⟩

/-- Without a cookie under its name, or with the empty body stored over the
token, the session of a storage is lost. -/
theorem not_continues (seg : IsSegment name) (lost : isToken name = false ∨ issue = .header) :
    ¬Continues name token issue := by
  intro continues
  have proper : ∀ s ∈ [name, str "permanent", str "shareText"], IsSegment s := by
    intro s hs
    simp only [List.mem_cons, List.not_mem_nil, or_false] at hs
    obtain rfl | rfl | rfl := hs
    · exact seg
    · decide
    · decide
  let register : Incoming :=
    { method := str "POST", url := ⟨str "/register/", []⟩, cookies := []
      form := [(str "name", name), (str "password", str "p")], multipart := .error [] }
  have entrance : dispatch false register =
      .endpoint (.handler .registerHandler) (.ok ⟨[], true, false, []⟩) :=
    @dispatch_expected register [str "register"] (by decide) true rfl
  obtain ⟨r, hr, -, runs⟩ := serveHTTP_handler Handler.plain entrance
  have form : register.form.get (str "name") = name := by
    simp [register, Values.get]
  have after := continues Handler.plain false ⟨[], by simp⟩ register
    ⟨seg.nonempty, rfl, .inl ⟨_, entrance, form⟩⟩ rfl
  have both := ((runs _).mp after).and (registerHandler_entered Handler.plain r)
  have posted : r.method = str "POST" := by rw [hr]
  have named : r.formValue (str "name") = name := by rw [Request.formValue, hr, form]
  obtain ⟨t, ⟨next, entered⟩, redirected, replied⟩ :=
    register_accepted (fun _ => rfl) token posted named seg.nonempty issue both
  obtain ⟨rsp, entered⟩ := entered redirected
  rw [Request.formValue, hr, form] at entered
  let jar : Jar := (⟨[], by simp⟩ : Jar).receive t
  have value : (jar.value? name).getD [] = [] := by
    rw [entered.value]
    cases lost with
    | inl hname => rw [hname]; rfl
    | inr header =>
        have reply := entered.replied
        rw [replied, header, List.mem_singleton] at reply
        rw [Except.ok.inj reply]
        cases isToken name <;> rfl
  let text : Incoming :=
    { method := str "POST", url := ⟨pathOf [name, str "permanent", str "shareText"] true, []⟩
      cookies := jar.cookies, form := [(str "title", str "a"), (str "body", str "b")]
      multipart := .error [] }
  have reached : dispatch false text =
      .endpoint (.handler .shareTextHandler) (.ok ⟨name, false, true, []⟩) :=
    dispatch_expected text proper true rfl
  have promised := next (fun reply hreply => ⟨0, by simpa [replied] using hreply⟩) redirected text _ _
    reached rfl rfl
  have actual := forwarded (h := Handler.plain) reached seg.nonempty (rfl : text.cookies = jar.cookies)
    value
  obtain ⟨r', hr', hsp, runs'⟩ := serveHTTP_handler Handler.plain reached
  obtain ⟨t', req, ⟨promised, actual⟩, member⟩ := shareText_asks (r := r')
    (by rw [Request.formValue, hr']; exact (by decide : str "a" ≠ []))
    (by rw [Request.formValue, hr']; exact (by decide : str "b" ≠ [])) hsp
    ((runs' _).mp (promised.and actual))
  have authorized := promised _ _ _ member
  rw [actual _ _ _ member] at authorized
  cases authorized

/-- A session continues exactly when the token comes in the body and the name of
the storage can be the name of a cookie, or when no route leads to the storage. -/
theorem continues_iff (name : Bytes) (token : Token) (issue : Issue) :
    Continues name token issue ↔
      isToken name = true ∧ (issue = .body ∨ issue = .both) ∨ ¬IsSegment name := by
  constructor
  · intro continues
    by_contra lost
    obtain ⟨kept, seg⟩ := not_or.mp lost
    refine not_continues token (not_not.mp seg) ?_ continues
    cases hname : isToken name with
    | false => exact .inl rfl
    | true =>
        cases issue with
        | header => exact .inr rfl
        | body => exact absurd ⟨hname, .inl rfl⟩ kept
        | both => exact absurd ⟨hname, .inr rfl⟩ kept
  · intro kept
    cases kept with
    | inl kept => exact continues_of_token token kept.1 (by cases kept.2 <;> simp [*])
    | inr unreachable => exact continues_of_unreachable token unreachable

/-- The token of a login to `a` that comes in the header only, and the token of a
login to `my files`, whose name has a space. -/
theorem session_lost :
    ¬Continues (str "a") ⟨str "tok", by decide, by decide⟩ .header ∧
      ¬Continues (str "my files") ⟨str "tok", by decide, by decide⟩ .body :=
  ⟨not_continues _ (by decide) (.inr rfl), not_continues _ (by decide) (.inl (by decide))⟩

end Continues
end FileSharing
