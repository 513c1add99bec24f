import FileSharing.Web.Refinement

/-!
Every request comes to its end. No handler does more than so many operations,
whatever they are answered with, so that a thread which gets its turn often enough
has answered its browser, whatever the other threads do in between.
-/

namespace FileSharing
open Net Effects

/-- The operations that a request takes at most. -/
def bound : Nat := 13

section Helpers
variable (h : Handler) (r : Request)

theorem atMost_error (err : HttpError) (handler : Bytes) : (h.error err handler).AtMost 4 :=
  (ensures_error h _ err handler).mpr (Nat.le_refl 4)

theorem atMost_redirect (url : Bytes) (code : Nat) : (httpRedirect h.lib r url code).AtMost 4 := by
  refine (ensures_httpRedirect _ h.lib r url code).mpr ?_
  rw [redirectEvents]
  split <;> split <;> simp

theorem length_tokenEvents (cs : CookieSession) (token name : Bytes) (now : Int) :
    (cs.tokenEvents token name now).length ≤ 2 := by
  rw [CookieSession.tokenEvents]
  split <;> simp

theorem atMost_exchanged {name : Bytes} {sent : GatewayRequest → Prop}
    {p : Act (Except HttpError GatewayResponse)} (hp : p.Ensures (Exchanged h name sent)) :
    p.AtMost 4 := by
  refine Program.Ensures.mono hp ?_
  intro es a ex
  have drawn : ∀ {pre : Trace}, Prepared pre → pre.length ≤ 1 := by
    intro pre hpre
    obtain rfl | ⟨b, rfl⟩ := hpre <;> simp
  cases ex with
  | unsent err hpre => exact (drawn hpre).trans (by decide)
  | refused hpre hreq hreply =>
      have short := drawn hpre
      simp
      omega
  | @accepted pre cookies req rsp hpre hreq status hcookies =>
      have short := drawn hpre
      have refreshed : cookies.length ≤ 2 := by
        rw [Refreshed] at hcookies
        split at hcookies
        · rw [hcookies]
          exact Nat.zero_le 2
        · obtain ⟨now, rfl⟩ := hcookies
          exact length_tokenEvents _ _ _ _
      simp
      omega

theorem atMost_deferClose {α : Type} {n : Nat} (rsp : GatewayResponse) {rest : Act α}
    (hrest : rest.AtMost n) : (deferClose rsp rest).AtMost (n + 1) :=
  hrest.bind fun _ => (Program.AtMost.perform _).bind fun _ => .pure (n := 0) _

theorem atMost_renderPage (page : Page) : (renderPage page).AtMost 2 := by
  refine (ensures_renderPage _ page).mpr ?_
  intro rendered
  rw [renderEvents]
  split <;> simp

theorem atMost_redirectWithToken (rsp : GatewayResponse) (name handler : Bytes) :
    (h.redirectWithToken r rsp name handler).AtMost 7 := by
  refine atMost_deferClose rsp ?_
  cases readAll rsp.body with
  | error err => exact ((atMost_error h _ _).bind fun _ => .pure (n := 2) _)
  | ok token =>
      have stored : (h.session.setToken token name).AtMost 2 :=
        (ensures_setToken _ _ token name).mpr fun now => length_tokenEvents _ _ _ now
      exact stored.bind fun _ => (atMost_redirect h r _ _).bind fun _ => .pure (n := 0) _

theorem atMost_failing (err : Option Bytes) (wrap : Bytes → HttpError)
    (handler : Bytes) :
    (match err with
      | some err => h.error (wrap err) handler
      | none => pure () : Act Unit).AtMost 4 := by
  cases err with
  | some err => exact atMost_error h _ _
  | none => exact .pure _

/-- Making a request to the gateway, and something with its reply. -/
theorem atMost_exchange {α : Type} {n : Nat} {name : Bytes} {sent : GatewayRequest → Prop}
    {p : Act (Except HttpError GatewayResponse)} (hp : p.Ensures (Exchanged h name sent))
    {f : Except HttpError GatewayResponse → Act α} (rest : ∀ reply, (f reply).AtMost n) :
    (p >>= f).AtMost (4 + n) :=
  (atMost_exchanged h hp).bind rest

end Helpers

section Handlers
variable (h : Handler) (r : Request)

theorem registerHandler_atMost : (h.registerHandler r).AtMost bound := by
  have rendering : ∀ a : TemplateRegister × Bool,
      (if a.2 then renderPage (.register a.1) else pure () : Act Unit).AtMost 2 := by
    intro a
    split
    · exact atMost_renderPage _
    · exact .pure _
  have body : (h.registerBody r).AtMost 11 := by
    rw [Handler.registerBody]
    split
    · exact .pure _
    · simp only
      split
      · exact .pure _
      · refine atMost_exchange (n := 7) h (makePostRequest_exchanged h r _ _ _) fun reply => ?_
        cases reply with
        | error err => exact .pure _
        | ok rsp => exact (atMost_redirectWithToken h r rsp _ _).bind fun _ => .pure (n := 0) _
  exact body.bind rendering

theorem loginHandler_atMost : (h.loginHandler r).AtMost bound := by
  have rendering : ∀ a : TemplatePassword × Bool,
      (if a.2 then renderPage (.login a.1) else pure () : Act Unit).AtMost 2 := by
    intro a
    split
    · exact atMost_renderPage _
    · exact .pure _
  have body : (h.loginBody r).AtMost 11 := by
    rw [Handler.loginBody]
    split
    · exact .pure _
    · cases requestParameters r with
      | error err => exact (atMost_error h _ _).bind fun _ => .pure (n := 7) _
      | ok sp =>
          simp only
          split
          · exact .pure _
          · refine atMost_exchange (n := 7) h (makePostRequest_exchanged h r _ _ _) fun reply => ?_
            cases reply with
            | error err => exact .pure _
            | ok rsp => exact (atMost_redirectWithToken h r rsp _ _).bind fun _ => .pure (n := 0) _
  exact body.bind rendering

theorem atMost_refusal (err : HttpError) (handler : Bytes) : (h.error err handler).AtMost bound :=
  (atMost_error h err handler).mono (by decide)

theorem atMost_ok (rsp : GatewayResponse) : (deferClose rsp (tell (.writeHeader 200))).AtMost 9 :=
  (atMost_deferClose rsp (Program.AtMost.perform (S := world) _)).mono (by decide)

theorem atMost_copy (rsp : GatewayResponse) (key value : Bytes) (wrap : Bytes → HttpError)
    (handler : Bytes) :
    (deferClose rsp do
      tell (.setHeader key value)
      match ← ioCopy rsp.body with
      | some err => h.error (wrap err) handler
      | none => pure ()).AtMost 9 := by
  have copied : (ioCopy rsp.body).AtMost 1 := by
    refine (ensures_ioCopy rsp.body _).mpr ?_
    rw [copyEvents]
    split <;> simp
  have header : (tell (.setHeader key value)).AtMost 1 := Program.AtMost.perform _
  have rest := header.bind fun _ => copied.bind fun err => atMost_failing h err wrap handler
  exact (atMost_deferClose rsp rest).mono (by decide)

theorem indexHTMLHandler_atMost : (h.indexHTMLHandler r).AtMost bound := by
  rw [Handler.indexHTMLHandler]
  cases requestParameters r with
  | error err => exact atMost_refusal h _ _
  | ok sp =>
      refine atMost_exchange (n := 9) h (makeGetRequest_exchanged h r _ _ _) fun reply => ?_
      cases reply with
      | error err => exact (atMost_error h _ _).mono (by decide)
      | ok rsp => exact atMost_copy h rsp _ _ _ _

theorem getFileHandler_atMost : (h.getFileHandler r).AtMost bound := by
  rw [Handler.getFileHandler]
  cases requestParameters r with
  | error err => exact atMost_refusal h _ _
  | ok sp =>
      refine atMost_exchange (n := 9) h (makeGetRequest_exchanged h r _ _ _) fun reply => ?_
      cases reply with
      | error err => exact (atMost_error h _ _).mono (by decide)
      | ok rsp => exact atMost_copy h rsp _ _ _ _

theorem viewHandler_atMost : (h.viewHandler r).AtMost bound := by
  rw [Handler.viewHandler]
  cases requestParameters r with
  | error err => exact atMost_refusal h _ _
  | ok sp =>
      refine atMost_exchange (n := 9) h (makeGetRequest_exchanged h r _ _ _) fun reply => ?_
      cases reply with
      | error err => exact (atMost_error h _ _).mono (by decide)
      | ok rsp =>
          refine atMost_deferClose (n := 8) rsp ?_
          cases h.lib.decodeFiles rsp.body with
          | error err => exact (atMost_error h _ _).mono (by decide)
          | ok files =>
              have page : (executeTemplate (.view (.new Handler.title
                  (!sp.isPermanent && !sp.isPublic) files))).AtMost 1 := Program.AtMost.perform _
              exact (page.bind fun rendered => atMost_failing h rendered.err _ _).mono (by decide)

theorem uploadHandler_atMost : (h.uploadHandler r).AtMost bound := by
  rw [Handler.uploadHandler]
  cases requestParameters r with
  | error err => exact atMost_refusal h _ _
  | ok sp =>
      refine atMost_exchange (n := 9) h (makeMultipartRequest_exchanged h r _ _) fun reply => ?_
      cases reply with
      | error err => exact (atMost_error h _ _).mono (by decide)
      | ok rsp => exact atMost_ok rsp

theorem removeHandler_atMost : (h.removeHandler r).AtMost bound := by
  rw [Handler.removeHandler]
  split
  · exact atMost_refusal h _ _
  · cases requestParameters r with
    | error err => exact atMost_refusal h _ _
    | ok sp =>
        refine atMost_exchange (n := 9) h (makePostRequest_exchanged h r _ _ _) fun reply => ?_
        cases reply with
        | error err => exact (atMost_error h _ _).mono (by decide)
        | ok rsp => exact atMost_ok rsp

theorem shareTextHandler_atMost : (h.shareTextHandler r).AtMost bound := by
  rw [Handler.shareTextHandler]
  simp only
  split
  · exact atMost_refusal h _ _
  · cases requestParameters r with
    | error err => exact atMost_refusal h _ _
    | ok sp =>
        refine atMost_exchange (n := 9) h (makePostRequest_exchanged h r _ _ _) fun reply => ?_
        cases reply with
        | error err => exact (atMost_error h _ _).mono (by decide)
        | ok rsp => exact atMost_ok rsp

theorem run_atMost (name : HandlerName) : (h.run name r).AtMost bound := by
  cases name with
  | registerHandler => exact registerHandler_atMost h r
  | loginHandler => exact loginHandler_atMost h r
  | indexHTMLHandler => exact indexHTMLHandler_atMost h r
  | viewHandler => exact viewHandler_atMost h r
  | uploadHandler => exact uploadHandler_atMost h r
  | removeHandler => exact removeHandler_atMost h r
  | getFileHandler => exact getFileHandler_atMost h r
  | shareTextHandler => exact shareTextHandler_atMost h r

end Handlers

/-- Every request is answered within so many operations, whatever it is routed to. -/
theorem serveHTTP_atMost (h : Handler) (deployed : Bool) (request : Incoming) :
    (serveHTTP h deployed request).AtMost bound := by
  have one : ∀ c : Command, (tell c).AtMost bound := fun c =>
    Program.AtMost.mono (Program.AtMost.perform (S := world) _) (by decide)
  rw [serveHTTP]
  split
  · exact (Program.AtMost.bind (n := 1) (m := 1) (.perform _) fun _ => .perform _).mono (by decide)
  · exact (atMost_redirect h _ _ _).mono (by decide)
  · rename_i target vars served
    cases target with
    | metrics => exact one _
    | route route =>
        rw [Registered.serveHTTP, Handler.recoverMiddleware, storeRouterParametes, Program.AtMost]
        cases route.handler with
        | redirectCommon =>
            simp only [Endpoint.serveHTTP, Program.ensures_bind, Program.pure_eq,
              Program.ensures_pure, List.append_nil]
            exact (atMost_redirect h _ _ _).mono (by decide)
        | fileServer =>
            simp only [Endpoint.serveHTTP, Program.ensures_bind, Program.pure_eq,
              Program.ensures_pure, List.append_nil]
            exact one _
        | handler name =>
            simp only [Endpoint.serveHTTP, Program.ensures_bind, Program.pure_eq,
              Program.ensures_pure, List.append_nil]
            exact run_atMost h _ name
  · exact one _
  · exact (Program.AtMost.bind (n := 1) (m := 3) (.perform _) fun _ => Program.AtMost.bind (n := 1)
      (m := 2) (.perform _) fun _ => Program.AtMost.bind (n := 1) (m := 1) (.perform _) fun _ =>
        .perform _).mono (by decide)

/-- How far a thread has come: what it has done, with the request to the gateway
counted twice, when it is sent and when it is answered. -/
def Thread.progress (thread : Thread) : Nat :=
  thread.events.length + (requestsOf thread.events).length +
    match thread.phase with
    | .running _ => 0
    | .waiting _ _ _ => 1

/-- A turn of a thread; what it is answered with has legal tokens. -/
def Action.Serves (h : Handler) (i : Nat) : Action → Prop
  | .advance j reply => j = i ∧ ∀ name req, h.legalReply req (reply (.doRequest name req)) = true
  | .request _ _ _ | .deliver _ _ => False

def Thread.Finished (thread : Thread) : Prop := thread.phase = .running (.pure ())

section Progress
variable {h : Handler} {deployed : Bool} {history : List Exchange} {thread : Thread}

theorem events_short {request : Incoming} {events : Trace} {rest : Act Unit}
    (reached : (serveHTTP h deployed request).Reaches events rest) : events.length ≤ bound :=
  (serveHTTP_atMost h deployed request).interrupted
    (fun t t' short => Nat.le_trans (by simp) short) reached

/-- A thread that is not finished has not come so far. -/
theorem progress_unfinished (sound : thread.Sound h deployed history)
    (unfinished : ¬thread.Finished) : thread.progress ≤ bound := by
  obtain ⟨b, request, events, phase⟩ := thread
  cases phase with
  | running rest =>
      cases rest with
      | pure a => exact absurd rfl unfinished
      | call op next =>
          have reached : (serveHTTP h deployed request).Reaches events (.call op next) :=
            sound.reached
          have short := events_short (reached.step default)
          have once := asked_once reached
          rw [List.length_append, List.length_singleton] at short
          simp only [Thread.progress]
          omega
  | waiting name req next =>
      obtain ⟨reached, -⟩ := sound.reached
      have short := events_short (reached.step (.error [] : Except Bytes GatewayResponse))
      have unasked := (about_to_ask reached).1
      rw [List.length_append, List.length_singleton] at short
      simp only [Thread.progress, unasked, List.length_nil]
      omega

end Progress

/-- A thread after some operations: it serves the same request, stays finished, and
is finished or has come as much further as it had turns. -/
structure Thread.Later (turns : Nat) (thread thread' : Thread) : Prop where
  request : thread'.request = thread.request
  kept : thread.Finished → thread'.Finished
  further : thread'.Finished ∨ thread.progress + turns ≤ thread'.progress

theorem Thread.Later.refl (thread : Thread) : thread.Later 0 thread :=
  ⟨rfl, id, .inr (Nat.le_refl _)⟩

theorem Thread.Later.trans {m n : Nat} {thread thread' thread'' : Thread}
    (first : thread.Later m thread') (second : thread'.Later n thread'') :
    thread.Later (m + n) thread'' where
  request := second.request.trans first.request
  kept := fun finished => second.kept (first.kept finished)
  further := by
    cases first.further with
    | inl finished => exact .inl (second.kept finished)
    | inr more =>
        cases second.further with
        | inl finished => exact .inl finished
        | inr further =>
            refine .inr ?_
            omega

theorem Thread.Later.one {thread thread' : Thread} {legal : Prop}
    (request : thread'.request = thread.request) (unfinished : ¬thread.Finished)
    (further : thread'.progress = thread.progress + 1) :
    thread.Later 0 thread' ∧ (legal → thread.Later 1 thread') := by
  have kept : thread.Finished → thread'.Finished := fun finished => absurd finished unfinished
  exact ⟨⟨request, kept, .inr (by omega)⟩, fun _ => ⟨request, kept, .inr (by omega)⟩⟩

/-- An operation brings a thread one step further, unless it is finished. -/
theorem later_advance (h : Handler) (reply : (op : Op) → world.Reply op) (thread : Thread) :
    thread.Later 0 (thread.advance h reply).1 ∧
      ((∀ name req, h.legalReply req (reply (.doRequest name req)) = true) →
        thread.Later 1 (thread.advance h reply).1) := by
  obtain ⟨b, request, events, phase⟩ := thread
  cases phase with
  | running rest =>
      cases rest with
      | pure a => exact ⟨.refl _, fun _ => ⟨rfl, id, .inl rfl⟩⟩
      | call op next =>
          have unfinished : ¬Thread.Finished ⟨b, request, events, .running (.call op next)⟩ := by
            intro finished
            cases finished
          by_cases asks : ∃ name req, op = .doRequest name req
          · obtain ⟨name, req, rfl⟩ := asks
            refine Thread.Later.one ?_ unfinished ?_ <;> rfl
          · have other : ∀ name req, op ≠ .doRequest name req := fun name req e =>
              asks ⟨name, req, e⟩
            rw [advance_other other]
            refine Thread.Later.one rfl unfinished ?_
            simp only [Thread.progress, requestsOf_other other, List.length_append,
              List.length_singleton]
            omega
  | waiting name req next =>
      have unfinished : ¬Thread.Finished ⟨b, request, events, .waiting name req next⟩ := by
        intro finished
        cases finished
      have answered : ∀ answer, (requestsOf (events ++ [asked name req answer])).length =
          (requestsOf events).length + 1 := by
        intro answer
        rw [requestsOf_append, List.length_append]
        rfl
      have legal : (∀ name req, h.legalReply req (reply (.doRequest name req)) = true) →
          h.legalReply req (reply (.doRequest name req)) = true := fun legal => legal name req
      simp only [Thread.advance]
      generalize (reply (.doRequest name req) : Except Bytes GatewayResponse) = answer at legal ⊢
      split
      · refine Thread.Later.one rfl unfinished ?_
        have once := answered answer
        simp only [Thread.progress, List.length_append, List.length_singleton]
        omega
      · rename_i illegal
        exact ⟨.refl _, fun all => absurd (legal all) illegal⟩

theorem steps_sound {h : Handler} {deployed : Bool} {s : System} (sound : s.Sound h deployed)
    (actions : List Action) : (actions.foldl (System.step h deployed) s).Sound h deployed := by
  induction actions generalizing s with
  | nil => exact sound
  | cons action actions ih => exact ih (step_sound sound action)

section Turns
variable {h : Handler} (deployed : Bool) {s : System} {i : Nat} {thread : Thread}
  (found : s.threads[i]? = some thread)
include found

/-- An action lets a thread advance, or else it is no turn of the thread. -/
theorem step_thread (action : Action) :
    (∃ reply, action = .advance i reply ∧
      (s.step h deployed action).threads[i]? = some (thread.advance h reply).1) ∨
    ¬action.Serves h i ∧ (s.step h deployed action).threads[i]? = some thread := by
  obtain ⟨lt, -⟩ := List.getElem?_eq_some_iff.mp found
  cases action with
  | request b r keep =>
      refine .inr ⟨not_false, ?_⟩
      simp only [System.step]
      rw [List.getElem?_append_left lt, found]
  | advance j reply =>
      by_cases here : j = i
      · subst here
        refine .inl ⟨reply, rfl, ?_⟩
        simp only [System.step, found]
        exact List.getElem?_set_self lt
      · refine .inr ⟨fun serves => here serves.1, ?_⟩
        simp only [System.step]
        cases s.threads[j]? with
        | none => exact found
        | some other => exact (List.getElem?_set_ne here).trans found
  | deliver j keep =>
      refine .inr ⟨not_false, ?_⟩
      simp only [System.step]
      cases s.threads[j]? <;> exact found

/-- What so many turns of a thread come to, among all other actions. -/
theorem turns_later {turns actions : List Action} (among : turns.Sublist actions)
    (serve : ∀ action ∈ turns, action.Serves h i) :
    ∃ thread', (actions.foldl (System.step h deployed) s).threads[i]? = some thread' ∧
      thread.Later turns.length thread' := by
  induction among generalizing s thread with
  | slnil => exact ⟨thread, found, .refl thread⟩
  | @cons turns actions action among ih =>
      have next : ∃ thread', (s.step h deployed action).threads[i]? = some thread' ∧
          thread.Later 0 thread' := by
        obtain ⟨reply, -, moved⟩ | ⟨-, stays⟩ := step_thread (h := h) deployed found action
        · exact ⟨_, moved, (later_advance h reply thread).1⟩
        · exact ⟨thread, stays, .refl thread⟩
      obtain ⟨thread', found', later⟩ := next
      obtain ⟨thread'', found'', later'⟩ := ih found' serve
      exact ⟨thread'', found'', by simpa using later.trans later'⟩
  | @cons_cons turns actions action among ih =>
      have turn := serve action List.mem_cons_self
      obtain ⟨reply, rfl, moved⟩ | ⟨never, -⟩ := step_thread (h := h) deployed found action
      · obtain ⟨thread'', found'', later'⟩ :=
          ih moved fun a ha => serve a (List.mem_cons_of_mem _ ha)
        refine ⟨thread'', found'', ?_⟩
        rw [List.length_cons, Nat.add_comm]
        exact ((later_advance h reply thread).2 turn.2).trans later'
      · exact absurd turn never

/-- A thread that gets so many turns has finished, whatever else is done. -/
theorem turns_finish (sound : s.Sound h deployed) {turns actions : List Action}
    (among : turns.Sublist actions) (serve : ∀ action ∈ turns, action.Serves h i)
    (enough : bound < turns.length) :
    ∃ thread', (actions.foldl (System.step h deployed) s).threads[i]? = some thread' ∧
      thread'.request = thread.request ∧ thread'.Finished := by
  obtain ⟨thread', found', later⟩ := turns_later (h := h) deployed found among serve
  refine ⟨thread', found', later.request, ?_⟩
  cases later.further with
  | inl finished => exact finished
  | inr further =>
      by_contra unfinished
      have kept := (steps_sound sound actions).threads thread' (List.mem_of_getElem? found')
      have short := progress_unfinished kept unfinished
      omega

end Turns

/-- A thread that gets fourteen turns after it has started has answered its request,
whatever else is done before, between and after them. -/
theorem request_completes (h : Handler) (deployed : Bool) (before rest turns : List Action)
    {i : Nat} {thread : Thread}
    (started : (System.run h deployed before).threads[i]? = some thread)
    (among : turns.Sublist rest) (serve : ∀ action ∈ turns, action.Serves h i)
    (enough : 14 ≤ turns.length) :
    ∃ thread', (System.run h deployed (before ++ rest)).threads[i]? = some thread' ∧
      thread'.request = thread.request ∧ thread'.phase = .running (.pure ()) ∧
      Program.Runs (serveHTTP h deployed thread.request) thread'.events () := by
  have sound := run_sound h deployed before
  obtain ⟨thread', found, request, finished⟩ := turns_finish deployed started sound among serve
    enough
  have run : (System.run h deployed (before ++ rest)).threads[i]? = some thread' := by
    rw [System.run, List.foldl_append]
    exact found
  have kept := (run_sound h deployed (before ++ rest)).threads thread' (List.mem_of_getElem? run)
  have reached := kept.reached
  rw [finished, request] at reached
  exact ⟨thread', run, request, finished, by simpa using reached.complete (.pure ())⟩

/-- A visit of a page while the gateway cannot be reached. -/
theorem request_completes_unreachable :
    let request : Incoming :=
      { method := str "GET", url := ⟨str "/a/", []⟩, cookies := [], form := []
        multipart := .error [] }
    let visited := [Action.request 0 request fun _ => true]
    let turns := List.replicate 14 (Action.advance 0 fun _ => default)
    ∃ thread', (System.run .plain true (visited ++ turns)).threads[0]? = some thread' ∧
      thread'.request = request ∧ thread'.phase = .running (.pure ()) ∧
      Program.Runs (serveHTTP .plain true request) thread'.events () := by
  intro request visited turns
  have started : (System.run .plain true visited).threads[0]? =
      some ⟨0, request, [], .running (serveHTTP .plain true request)⟩ := rfl
  refine request_completes .plain true visited turns turns started (List.Sublist.refl turns) ?_ ?_
  · intro action turn
    rw [List.eq_of_mem_replicate turn]
    exact ⟨rfl, fun _ _ => rfl⟩
  · exact Nat.le_of_eq List.length_replicate.symm

end FileSharing
