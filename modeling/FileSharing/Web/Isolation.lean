import FileSharing.Web.System

/-!
Session isolation. Every cookie in a jar was set after an accepted reply for the
storage it is named after, and a request is authorized from the cookie of its
storage only. A run of the service keeps both, whatever is interleaved.
-/

namespace FileSharing
open Net Effects

/-- The gateway answered a request that was sent before. -/
def Answered (b : Browser) (name : Bytes) (req : GatewayRequest) (rsp : GatewayResponse)
    (history : List Exchange) : Prop :=
  ∃ earlier, .answered b name req (.ok rsp) :: earlier <:+ history ∧ .sent b name req ∈ earlier

/-- The token was handed out to the browser for this storage. -/
def Granted (h : Handler) (b : Browser) (name token : Bytes) (history : List Exchange) : Prop :=
  ∃ req rsp, Answered b name req rsp history ∧ rsp.statusCode = 200 ∧ h.Issued req rsp token

/-- Every authorization is a token that was granted before. -/
def Isolated (h : Handler) (history : List Exchange) : Prop :=
  ∀ b name req earlier, .sent b name req :: earlier <:+ history →
    ∀ a, req.authorization = some a →
      ∃ token, a = str "Bearer " ++ token ∧ Granted h b name token earlier

/-- What a run does with the cookies it was given, looking backwards only. -/
structure Confined (h : Handler) (cookies : List (Bytes × Bytes)) (t : Trace) : Prop where
  authorized : ∀ name req reply, asked name req reply ∈ t → ∀ a, req.authorization = some a →
    ∃ token, a = str "Bearer " ++ token ∧ (name, token) ∈ cookies
  owned : ∀ pre c post, t = pre ++ told (.addCookie c) :: post →
    ∃ req rsp token, asked c.name req (.ok rsp) ∈ pre ∧ rsp.statusCode = 200 ∧
      h.Issued req rsp token ∧ c.value = sanitizeCookieValue token

theorem Confined.earlier {h : Handler} {cookies : List (Bytes × Bytes)} {t t' : Trace}
    (confined : Confined h cookies (t ++ t')) : Confined h cookies t where
  authorized := fun name req reply he =>
    confined.authorized name req reply (List.mem_append_left t' he)
  owned := fun pre c post ht =>
    confined.owned pre c (post ++ t') (by rw [ht, List.append_assoc, List.cons_append])

/-- A cookie in a run comes after the accepted reply that it stems from. -/
theorem Ledger.owned {h : Handler} {sends : Bytes → GatewayRequest → Prop} {t : Trace}
    (ledger : Ledger h sends t) {pre post : Trace} {c : Cookie}
    (ht : t = pre ++ told (.addCookie c) :: post) :
    ∃ req rsp token, asked c.name req (.ok rsp) ∈ pre ∧ rsp.statusCode = 200 ∧
      h.Issued req rsp token ∧ c.value = sanitizeCookieValue token := by
  have loud : ∀ {t : Trace}, Silent t → told (.addCookie c) ∉ t := by
    intro t ht he
    cases ht _ he
  have member : told (.addCookie c) ∈ t := by
    rw [ht]
    exact List.mem_append_right pre List.mem_cons_self
  cases ledger with
  | idle silent => exact absurd member (loud silent)
  | refused hpre sent hreply hpost =>
      rcases List.mem_append.mp member with he | he
      · exact absurd he (loud hpre)
      · rcases List.mem_cons.mp he with he | he
        · cases he
        · exact absurd he (loud hpost)
  | @accepted before mid after name req rsp hpre sent status hmid hpost =>
      have set : h.SetsIssued name req rsp (told (.addCookie c)) := by
        rcases List.mem_append.mp member with he | he
        · rcases List.mem_append.mp he with he | he
          · exact absurd he (loud hpre)
          · rcases List.mem_cons.mp he with he | he
            · cases he
            · exact hmid _ he
        · rcases List.mem_cons.mp he with he | he
          · cases he
          · exact absurd he (loud hpost)
      obtain ⟨named, token, issued, value⟩ := set
      refine ⟨req, rsp, token, ?_, status, issued, value⟩
      rw [named]
      rw [List.append_assoc, List.cons_append] at ht
      rcases List.append_eq_append_iff.mp ht with ⟨x, hx, hrest⟩ | ⟨x, hx, hrest⟩
      · cases x with
        | nil => cases (List.cons.inj hrest).1
        | cons e x =>
            rw [hx, ← (List.cons.inj hrest).1]
            exact List.mem_append_right before List.mem_cons_self
      · cases x with
        | nil => cases (List.cons.inj hrest).1
        | cons e x =>
            have early : told (.addCookie c) ∈ before := by
              rw [hx, (List.cons.inj hrest).1]
              exact List.mem_append_right pre List.mem_cons_self
            exact absurd early (loud hpre)

section Handlers
variable (h : Handler) (r : Request) {name : Bytes} {req : GatewayRequest}

theorem sends_authorization {handler : HandlerName} (sent : h.sends r handler name req) :
    req.authorization = Handler.authorization r name := by
  cases handler with
  | registerHandler =>
      obtain ⟨-, -, -, rfl⟩ := sent
      rfl
  | loginHandler =>
      obtain ⟨-, sp, -, -, rfl⟩ := sent
      rfl
  | indexHTMLHandler | viewHandler | getFileHandler =>
      obtain ⟨sp, -, -, rfl⟩ := sent
      rfl
  | uploadHandler =>
      obtain ⟨sp, -, -, stream, files, boundary, -, -, rfl⟩ := sent
      rfl
  | removeHandler =>
      obtain ⟨-, sp, -, -, rfl⟩ := sent
      rfl
  | shareTextHandler =>
      obtain ⟨-, -, sp, -, -, rfl⟩ := sent
      rfl

/-- Only the cookie of the storage authorizes a request. -/
theorem authorization_cookie {a : Bytes} (ha : Handler.authorization r name = some a) :
    ∃ token, a = str "Bearer " ++ token ∧ (name, token) ∈ r.cookies := by
  rw [Handler.authorization] at ha
  split at ha
  · rename_i some
    refine ⟨Handler.sessionToken r name, (Option.some_inj.mp ha).symm, ?_⟩
    rw [Handler.sessionToken] at some ⊢
    cases found : CookieSession.getToken name r with
    | none => exact absurd (by rw [found]; rfl) some
    | some token =>
        rw [CookieSession.getToken] at found
        split at found
        · cases found
        · obtain ⟨cookie, hc, rfl⟩ := Option.map_eq_some_iff.mp found
          have named : cookie.1 = name := by simpa using List.find?_some hc
          rw [← named]
          exact List.mem_of_find?_eq_some hc
  · cases ha

theorem confined_of_ledger {cookies : List (Bytes × Bytes)} {t : Trace}
    (ledger : Ledger h (fun name req => ∃ r : Request, r.cookies = cookies ∧
      ∃ handler, h.sends r handler name req) t) : Confined h cookies t where
  authorized := by
    intro name req reply he a ha
    obtain ⟨r, rfl, handler, sent⟩ := ledger.sent he
    rw [sends_authorization h r sent] at ha
    exact authorization_cookie r ha
  owned := fun pre c post ht => ledger.owned ht

end Handlers

/-- Whatever the router makes of a request, its run is confined to the cookies
the request came with. -/
theorem serveHTTP_confined (h : Handler) (deployed : Bool) (request : Incoming) :
    (serveHTTP h deployed request).Ensures fun t _ => Confined h request.cookies t := by
  have ledger : (serveHTTP h deployed request).Ensures fun t _ =>
      Ledger h (fun name req => ∃ r : Request, r.cookies = request.cookies ∧
        ∃ handler, h.sends r handler name req) t := by
    rw [serveHTTP]
    split
    · simpa using Ledger.idle (by simp [told, quiet])
    · simpa using Ledger.idle (silent_redirectEvents _ _ _ _)
    · rename_i target vars served
      cases target with
      | metrics => simpa [Registered.serveHTTP] using Ledger.idle (by simp [told, quiet])
      | route r =>
          rw [Registered.serveHTTP, Handler.recoverMiddleware, storeRouterParametes]
          cases r.handler with
          | redirectCommon =>
              simpa [Endpoint.serveHTTP] using Ledger.idle (silent_redirectEvents _ _ _ _)
          | fileServer => simpa [Endpoint.serveHTTP] using Ledger.idle (by simp [told, quiet])
          | handler name =>
              have run := run_ledger h (r.request request vars) name
              simp only [Endpoint.serveHTTP, Program.ensures_bind, Program.pure_eq,
                Program.ensures_pure, List.append_nil]
              refine run.mono ?_
              intro t _ ledger
              exact ledger.mono fun _ _ sent => ⟨r.request request vars, rfl, name, sent⟩
    · simpa using Ledger.idle (by simp [told, quiet])
    · simpa [notFound] using Ledger.idle (by simp [told, quiet])
  exact ledger.mono fun t _ ledger => confined_of_ledger h ledger

section Later
variable {h : Handler} {b : Browser} {history history' : List Exchange}
  (suffix : history <:+ history')
include suffix

theorem Answered.later {name : Bytes} {req : GatewayRequest} {rsp : GatewayResponse}
    (answered : Answered b name req rsp history) : Answered b name req rsp history' := by
  obtain ⟨earlier, at_history, sent⟩ := answered
  exact ⟨earlier, at_history.trans suffix, sent⟩

theorem Granted.later {name token : Bytes} (granted : Granted h b name token history) :
    Granted h b name token history' := by
  obtain ⟨req, rsp, answered, issued⟩ := granted
  exact ⟨req, rsp, answered.later suffix, issued⟩

end Later

/-- A thread is where its program can be after its events, and its events and
its cookies are those of the history. -/
structure Thread.Sound (h : Handler) (deployed : Bool) (history : List Exchange)
    (thread : Thread) : Prop where
  cookies : ∀ c ∈ thread.request.cookies, Granted h thread.browser c.1 c.2 history
  logged : ∀ name req rsp, asked name req (.ok rsp) ∈ thread.events →
    Answered thread.browser name req rsp history ∧ h.legalReply req (.ok rsp) = true
  reached : match thread.phase with
    | .running rest => (serveHTTP h deployed thread.request).Reaches thread.events rest
    | .waiting name req next =>
      (serveHTTP h deployed thread.request).Reaches thread.events (.call (.doRequest name req) next) ∧
        .sent thread.browser name req ∈ history

structure System.Sound (h : Handler) (deployed : Bool) (s : System) : Prop where
  isolated : Isolated h s.history
  jar : ∀ b, ∀ c ∈ s.jar b, Granted h b c.1 c.2 s.history
  threads : ∀ thread ∈ s.threads, thread.Sound h deployed s.history

theorem legal_issued {h : Handler} {req : GatewayRequest} {rsp : GatewayResponse} {token : Bytes}
    (legal : h.legalReply req (.ok rsp) = true) (status : rsp.statusCode = 200)
    (issued : h.Issued req rsp token) : sanitizeCookieValue token = token := by
  have both := of_decide_eq_true legal status
  apply sanitizeCookieValue_legal
  cases issued with
  | inl fresh =>
      rw [fresh]
      exact both.1
  | inr body =>
      obtain ⟨issues, complete, rfl⟩ := body
      exact both.2 issues complete

section Steps
variable {h : Handler} {deployed : Bool} {history : List Exchange} {thread : Thread}

theorem Thread.Sound.later {history' : List Exchange} (sound : thread.Sound h deployed history)
    (later : history <:+ history') : thread.Sound h deployed history' where
  cookies := fun c hc => (sound.cookies c hc).later later
  logged := fun name req rsp he =>
    ⟨(sound.logged name req rsp he).1.later later, (sound.logged name req rsp he).2⟩
  reached := by
    have reached := sound.reached
    cases hp : thread.phase with
    | running rest => simpa [hp] using reached
    | waiting name req next =>
        simp only [hp] at reached ⊢
        exact ⟨reached.1, later.subset reached.2⟩

theorem confined_of_reaches {request : Incoming} {events : Trace} {rest : Act Unit}
    (reached : (serveHTTP h deployed request).Reaches events rest) :
    Confined h request.cookies events :=
  (serveHTTP_confined h deployed request).interrupted (fun _ _ confined => confined.earlier) reached

theorem Thread.Sound.confined (sound : thread.Sound h deployed history) :
    Confined h thread.request.cookies thread.events := by
  have reached := sound.reached
  cases hp : thread.phase with
  | running rest =>
      simp only [hp] at reached
      exact confined_of_reaches reached
  | waiting name req next =>
      simp only [hp] at reached
      exact confined_of_reaches reached.1

/-- What a thread has set was granted to its browser. -/
theorem Thread.Sound.granted (sound : thread.Sound h deployed history) {c : Cookie}
    (hc : c ∈ thread.events.filterMap cookieOf) :
    Granted h thread.browser c.name c.value history := by
  obtain ⟨e, he, hec⟩ := List.mem_filterMap.mp hc
  have event : e = told (.addCookie c) := by
    unfold cookieOf at hec
    split at hec
    · cases hec
      rfl
    · cases hec
  obtain ⟨pre, post, split⟩ := List.append_of_mem he
  rw [event] at split
  obtain ⟨req, rsp, token, member, status, issued, value⟩ := sound.confined.owned pre c post split
  have earlier : asked c.name req (.ok rsp) ∈ thread.events := by
    rw [split]
    exact List.mem_append_left _ member
  obtain ⟨answered, legal⟩ := sound.logged _ _ _ earlier
  rw [value, legal_issued legal status issued]
  exact ⟨req, rsp, answered, status, issued⟩

theorem isolated_answered (isolated : Isolated h history) (b : Browser) (name : Bytes)
    (req : GatewayRequest) (reply : Except Bytes GatewayResponse) :
    Isolated h (.answered b name req reply :: history) := by
  intro b' name' req' earlier suffix
  cases List.suffix_cons_iff.mp suffix with
  | inl here => cases (List.cons.inj here).1
  | inr before => exact isolated b' name' req' earlier before

theorem isolated_sent (isolated : Isolated h history) {b : Browser} {name : Bytes}
    {req : GatewayRequest} (granted : ∀ a, req.authorization = some a →
      ∃ token, a = str "Bearer " ++ token ∧ Granted h b name token history) :
    Isolated h (.sent b name req :: history) := by
  intro b' name' req' earlier suffix
  cases List.suffix_cons_iff.mp suffix with
  | inl here =>
      cases here
      exact granted
  | inr before => exact isolated b' name' req' earlier before

/-- One operation of one thread. -/
theorem advance_sound (isolated : Isolated h history) (sound : thread.Sound h deployed history)
    (reply : (op : Op) → world.Reply op) :
    Isolated h ((thread.advance h reply).2 ++ history) ∧
      (thread.advance h reply).1.Sound h deployed ((thread.advance h reply).2 ++ history) := by
  obtain ⟨b, request, events, phase⟩ := thread
  have reached := sound.reached
  cases phase with
  | running rest =>
      cases rest with
      | pure a => exact ⟨isolated, sound⟩
      | call op next =>
          -- Every operation but a gateway request leaves the history alone.
          have quietly : (∀ name req r, (⟨op, reply op⟩ : Event world) ≠ asked name req r) →
              Thread.Sound h deployed history
                ⟨b, request, events ++ [⟨op, reply op⟩], .running (next (reply op))⟩ := by
            intro other
            refine ⟨sound.cookies, ?_, reached.step (reply op)⟩
            intro name req rsp he
            cases List.mem_append.mp he with
            | inl he => exact sound.logged name req rsp he
            | inr he => exact absurd (List.mem_singleton.mp he).symm (other name req (.ok rsp))
          cases op with
          | doRequest name req =>
              have next_event := confined_of_reaches
                (reached.step (.error [] : Except Bytes GatewayResponse))
              have granted : ∀ a, req.authorization = some a →
                  ∃ token, a = str "Bearer " ++ token ∧ Granted h b name token history := by
                intro a ha
                obtain ⟨token, bearer, cookie⟩ := next_event.authorized name req (.error [])
                  (List.mem_append_right events List.mem_cons_self) a ha
                exact ⟨token, bearer, sound.cookies _ cookie⟩
              have later : history <:+ .sent b name req :: history := List.suffix_cons _ _
              refine ⟨isolated_sent isolated granted, ?_⟩
              exact ⟨(sound.later later).cookies, (sound.later later).logged,
                reached, List.mem_cons_self⟩
          | tell c | executeTemplate page | now | randomBoundary =>
              refine ⟨isolated, quietly ?_⟩
              intro name req r e
              cases e
  | waiting name req next =>
      simp only [Thread.advance]
      generalize (reply (.doRequest name req) : Except Bytes GatewayResponse) = answer
      split
      · rename_i legal
        have later := List.suffix_cons (Exchange.answered b name req answer) history
        refine ⟨isolated_answered isolated b name req _, (sound.later later).cookies, ?_,
          reached.1.step answer⟩
        intro name' req' rsp he
        cases List.mem_append.mp he with
        | inl he => exact (sound.later later).logged name' req' rsp he
        | inr he =>
            cases List.mem_singleton.mp he
            exact ⟨⟨history, List.suffix_refl _, reached.2⟩, legal⟩
      · exact ⟨isolated, sound⟩

end Steps
theorem step_sound {h : Handler} {deployed : Bool} {s : System} (sound : s.Sound h deployed)
    (action : Action) : (s.step h deployed action).Sound h deployed := by
  cases action with
  | request b r keep =>
      refine ⟨sound.isolated, sound.jar, ?_⟩
      intro thread hthread
      cases List.mem_append.mp hthread with
      | inl hthread => exact sound.threads thread hthread
      | inr hthread =>
          rw [List.mem_singleton.mp hthread]
          refine ⟨?_, fun _ _ _ he => (List.not_mem_nil he).elim, .refl⟩
          exact fun c hc => sound.jar b c (List.mem_filter.mp hc).1
  | advance i reply =>
      simp only [System.step]
      cases found : s.threads[i]? with
      | none => exact sound
      | some thread =>
          have member := List.mem_of_getElem? found
          obtain ⟨isolated, moved⟩ :=
            advance_sound sound.isolated (sound.threads thread member) reply
          have later := List.suffix_append (thread.advance h reply).2 s.history
          refine ⟨isolated, fun b c hc => (sound.jar b c hc).later later, ?_⟩
          intro other hother
          cases List.mem_or_eq_of_mem_set hother with
          | inl before => exact (sound.threads other before).later later
          | inr now =>
              rw [now]
              exact moved
  | deliver i keep =>
      simp only [System.step]
      cases found : s.threads[i]? with
      | none => exact sound
      | some thread =>
          have owner := sound.threads thread (List.mem_of_getElem? found)
          refine ⟨sound.isolated, ?_, sound.threads⟩
          intro b c hc
          by_cases same : b = thread.browser
          · simp only [same, if_true] at hc
            cases List.mem_append.mp hc with
            | inl delivered =>
                obtain ⟨cookie, hcookie, rfl⟩ := List.mem_map.mp delivered
                rw [same]
                exact owner.granted (List.mem_filter.mp hcookie).1
            | inr held =>
                rw [same]
                exact sound.jar thread.browser c held
          · simp only [same, if_false] at hc
            exact sound.jar b c hc

theorem init_sound (h : Handler) (deployed : Bool) : System.init.Sound h deployed where
  isolated := fun _ _ _ _ suffix => absurd suffix.length_le (by simp [System.init])
  jar := fun _ _ hc => (List.not_mem_nil hc).elim
  threads := fun _ hthread => (List.not_mem_nil hthread).elim

theorem run_sound (h : Handler) (deployed : Bool) (actions : List Action) :
    (System.run h deployed actions).Sound h deployed := by
  have steps : ∀ s : System, s.Sound h deployed →
      (actions.foldl (System.step h deployed) s).Sound h deployed := by
    induction actions with
    | nil => exact fun _ sound => sound
    | cons a actions ih => exact fun s sound => ih _ (step_sound sound a)
  exact steps .init (init_sound h deployed)

/-- Session isolation: in every run, an authorization sent for a storage on
behalf of a browser is a token that an earlier accepted reply handed out to that
browser for that storage. -/
theorem session_isolation (h : Handler) (deployed : Bool) (actions : List Action) :
    ∀ b name req earlier,
      .sent b name req :: earlier <:+ (System.run h deployed actions).history →
        ∀ a, req.authorization = some a → ∃ token, a = str "Bearer " ++ token ∧
          ∃ req' rsp before, .answered b name req' (.ok rsp) :: before <:+ earlier ∧
            .sent b name req' ∈ before ∧ rsp.statusCode = 200 ∧
            (token = rsp.xToken ∨
              h.IssuesToken req' ∧ rsp.body.err = none ∧ token = rsp.body.data) := by
  intro b name req earlier suffix a ha
  obtain ⟨token, bearer, req', rsp, ⟨before, answered, sent⟩, status, issued⟩ :=
    (run_sound h deployed actions).isolated b name req earlier suffix a ha
  exact ⟨token, bearer, req', rsp, before, answered, sent, status, issued⟩

/-- A login to the storage `a`, its cookie delivered, and a visit of its page. -/
def loginAndView : List Action :=
  let incoming (method path : Bytes) (form : Values) : Incoming :=
    { method, url := ⟨path, []⟩, cookies := [], form, multipart := .error [] }
  let reply : (op : Op) → world.Reply op
    | .tell _ => ()
    | .executeTemplate _ => (⟨[], none⟩ : Rendered)
    | .doRequest _ _ => (.ok ⟨200, [], ⟨0, str "tok", none⟩⟩ : Except Bytes GatewayResponse)
    | .now => (0 : Int)
    | .randomBoundary => ([] : Bytes)
  [.request 0 (incoming (str "POST") (str "/login/a/") [(str "password", str "p")]) fun _ => true,
    .advance 0 reply, .advance 0 reply, .advance 0 reply, .advance 0 reply,
    .deliver 0 fun _ => true,
    .request 0 (incoming (str "GET") (str "/a/") []) fun _ => true, .advance 1 reply]

theorem session_isolation_loginAndView :
    let req : GatewayRequest :=
      { method := str "GET", url := str "http://gateway/list/", rawQuery := str "file=&storage=a"
        body := [], contentType := none, authorization := some (str "Bearer tok") }
    let history := (System.run Handler.plain true loginAndView).history
    history = .sent 0 (str "a") req :: history.tail ∧
      ∃ token, str "Bearer tok" = str "Bearer " ++ token ∧
        ∃ req' rsp before, .answered 0 (str "a") req' (.ok rsp) :: before <:+ history.tail ∧
          .sent 0 (str "a") req' ∈ before ∧ rsp.statusCode = 200 ∧
          (token = rsp.xToken ∨
            Handler.plain.IssuesToken req' ∧ rsp.body.err = none ∧ token = rsp.body.data) := by
  have latest : (System.run Handler.plain true loginAndView).history =
      .sent 0 (str "a")
        { method := str "GET", url := str "http://gateway/list/"
          rawQuery := str "file=&storage=a", body := [], contentType := none
          authorization := some (str "Bearer tok") } ::
        (System.run Handler.plain true loginAndView).history.tail := by
    decide
  refine ⟨latest, ?_⟩
  exact session_isolation Handler.plain true loginAndView 0 (str "a") _ _ ⟨[], latest.symm⟩ _ rfl

end FileSharing
