import FileSharing.Web.Desk
import FileSharing.Web.Isolation
import FileSharing.Web.Rebuilding

/-!
The service refines its desk. A thread brings its request to the gateway at most
once, as an operation that the decision list has for it; with every thread taken
for the request it serves, each step of the service is a step of the desk or is
not seen.
-/

namespace FileSharing
open Net Effects

section Sends
variable {h : Handler} {r : Request} {handler : HandlerName} {a : Answer} {segs : List Bytes}

/-- A handler that works on a storage finds its name in the path. -/
theorem decision_named {method : Bytes} (ha : decision method segs = some a)
    (endpoint : a.endpoint = .handler handler) (other : handler ≠ .registerHandler) :
    a.storage ∈ segs := by
  cases decision_iff.mp ha with
  | redirectCommon | fileServer => cases endpoint
  | register =>
      cases endpoint
      exact absurd rfl other
  | login | index | indexPermanent | filePermanent | viewPermanent | file | view | operation |
      operationPermanent => simp

/-- The method under which the decision list has a handler. -/
theorem decision_method {method : Bytes} (ha : decision method segs = some a)
    (endpoint : a.endpoint = .handler handler) :
    match handler with
    | .registerHandler => a.isPermanent = false
    | .loginHandler => True
    | .indexHTMLHandler | .viewHandler | .getFileHandler => method = str "GET"
    | .uploadHandler | .removeHandler | .shareTextHandler => method = str "POST" := by
  cases decision_iff.mp ha with
  | redirectCommon | fileServer => cases endpoint
  | register | login | index | indexPermanent | filePermanent | viewPermanent | file | view =>
      cases endpoint
      trivial
  | operation _ hop | operationPermanent _ hop =>
      cases endpoint
      obtain rfl | rfl | rfl := operation_handler hop <;> rfl

/-- The fields that say where a request belongs, whatever else is sent. -/
theorem fields_values (sp : StorageParameters) {more : Values}
    (storage : more.all (str "storage") = []) (permanent : more.all (str "permanent") = []) :
    (parseQuery (sp.values ++ more).encode).all (str "storage") = [sp.storageName] ∧
      (parseQuery (sp.values ++ more).encode).all (str "permanent") =
        if sp.isPermanent then [str "true"] else [] := by
  constructor
  · rw [all_parseQuery_encode, Values.all_append, all_values, storage]
    simp +decide
  · rw [all_parseQuery_encode, Values.all_append, all_values, permanent]
    simp +decide

theorem brings_of_sends (ha : decision r.method (segments r.url.path) = some a)
    (endpoint : a.endpoint = .handler handler) (hsp : requestParameters r = .ok a.parameters)
    {name : Bytes} {req : GatewayRequest} (sent : h.sends r handler name req) :
    h.Brings r.toIncoming name req handler a := by
  have named : handler ≠ .registerHandler → a.storage ≠ [] := fun other =>
    (isSegment_of_mem_segments (decision_named ha endpoint other)).nonempty
  have fields : ∀ more : Values, more.all (str "storage") = [] → more.all (str "permanent") = [] →
      (parseQuery (a.parameters.values ++ more).encode).all (str "storage") = [a.storage] ∧
        (parseQuery (a.parameters.values ++ more).encode).all (str "permanent") =
          if a.isPermanent then [str "true"] else [] := fun _ => fields_values a.parameters
  have alone := fields [] rfl rfl
  rw [List.append_nil] at alone
  have method := decision_method ha endpoint
  cases handler with
  | registerHandler =>
      obtain ⟨posted, rfl, nonempty, rfl⟩ := sent
      refine ⟨ha, endpoint, rfl, nonempty, posted.symm, rfl, fun _ => ?_⟩
      rw [fields_postRequest]
      simp +decide [all_parseQuery_encode, method]
  | loginHandler =>
      obtain ⟨posted, sp, hsp', rfl, rfl⟩ := sent
      obtain rfl := requestParameters_unique hsp hsp'
      refine ⟨ha, endpoint, rfl, named (by decide), posted.symm, rfl, fun _ => ?_⟩
      rw [fields_postRequest]
      exact fields _ (by simp +decide) (by simp +decide)
  | indexHTMLHandler | viewHandler | getFileHandler =>
      obtain ⟨sp, hsp', rfl, rfl⟩ := sent
      obtain rfl := requestParameters_unique hsp hsp'
      exact ⟨ha, endpoint, rfl, named (by decide), method.symm, rfl, fun _ => alone⟩
  | uploadHandler =>
      obtain ⟨sp, hsp', rfl, stream, files, boundary, -, -, rfl⟩ := sent
      obtain rfl := requestParameters_unique hsp hsp'
      exact ⟨ha, endpoint, rfl, named (by decide), method.symm, rfl, fun other => absurd rfl other⟩
  | removeHandler =>
      obtain ⟨-, sp, hsp', rfl, rfl⟩ := sent
      obtain rfl := requestParameters_unique hsp hsp'
      refine ⟨ha, endpoint, rfl, named (by decide), method.symm, rfl, fun _ => ?_⟩
      rw [fields_postRequest]
      exact alone
  | shareTextHandler =>
      obtain ⟨-, -, sp, hsp', rfl, rfl⟩ := sent
      obtain rfl := requestParameters_unique hsp hsp'
      refine ⟨ha, endpoint, rfl, named (by decide), method.symm, rfl, fun _ => ?_⟩
      rw [fields_postRequest, Values.add, Values.add, List.append_assoc]
      exact fields _ (by simp +decide) (by simp +decide)

end Sends

/-- Whatever a request is routed to, it is brought to the gateway once at the most,
as an operation of the decision list. -/
theorem serveHTTP_ledger (h : Handler) (deployed : Bool) (request : Incoming) :
    (serveHTTP h deployed request).Ensures fun t _ =>
      Ledger h (fun name req => ∃ handler a, h.Brings request name req handler a) t := by
  rw [serveHTTP]
  split
  · simpa using Ledger.idle (by simp [told, quiet])
  · simpa using Ledger.idle (silent_redirectEvents _ _ _ _)
  · rename_i target vars served
    cases target with
    | metrics => simpa [Registered.serveHTTP] using Ledger.idle (by simp [told, quiet])
    | route route =>
        have routed : dispatch deployed request =
            .endpoint route.handler (requestParameters (route.request request vars)) := by
          rw [dispatch, served]
        rw [Registered.serveHTTP, Handler.recoverMiddleware, storeRouterParametes]
        cases which : route.handler with
        | redirectCommon =>
            simpa [Endpoint.serveHTTP] using Ledger.idle (silent_redirectEvents _ _ _ _)
        | fileServer => simpa [Endpoint.serveHTTP] using Ledger.idle (by simp [told, quiet])
        | handler name =>
            obtain ⟨trailing, a, -, decided, -, endpoint, hsp⟩ := dispatch_endpoint routed
            have run := run_ledger h (route.request request vars) name
            simp only [Endpoint.serveHTTP, Program.ensures_bind, Program.pure_eq,
              Program.ensures_pure, List.append_nil]
            refine run.mono ?_
            intro t _ ledger
            refine ledger.mono fun _ _ sent => ⟨name, a, ?_⟩
            exact brings_of_sends decided (endpoint.symm.trans which) hsp sent
  · simpa using Ledger.idle (by simp [told, quiet])
  · simpa [notFound] using Ledger.idle (by simp [told, quiet])

/-- The requests of a run are one at the most. -/
theorem Ledger.once {h : Handler} {sends : Bytes → GatewayRequest → Prop} {t : Trace}
    (ledger : Ledger h sends t) : (requestsOf t).length ≤ 1 := by
  cases found : requestsOf t with
  | nil => exact Nat.zero_le 1
  | cons req rest =>
      have member : req ∈ requestsOf t := by simp [found]
      obtain ⟨e, he, shows⟩ := List.mem_filterMap.mp member
      have event : ∃ name reply, e = asked name req reply := by
        split at shows
        · cases shows
          exact ⟨_, _, rfl⟩
        · cases shows
      obtain ⟨name, reply, rfl⟩ := event
      rw [ledger.requests h he] at found
      cases found
      exact Nat.le_refl 1

section Reached
variable {h : Handler} {deployed : Bool} {request : Incoming} {events : Trace} {name : Bytes}
  {req : GatewayRequest} {next : Except Bytes GatewayResponse → Act Unit}

theorem asked_once {rest : Act Unit}
    (reached : (serveHTTP h deployed request).Reaches events rest) :
    (requestsOf events).length ≤ 1 := by
  have shorter : ∀ t t' : Trace, (requestsOf (t ++ t')).length ≤ 1 → (requestsOf t).length ≤ 1 := by
    intro t t' once
    rw [requestsOf_append, List.length_append] at once
    omega
  have ledger := serveHTTP_ledger h deployed request
  exact (ledger.mono fun _ _ ledger => ledger.once).interrupted shorter reached

/-- A program that is about to ask has not asked before, and asks what its request
may be brought as. -/
theorem about_to_ask
    (reached : (serveHTTP h deployed request).Reaches events (.call (.doRequest name req) next)) :
    requestsOf events = [] ∧ ∃ handler a, h.Brings request name req handler a := by
  have ledger := serveHTTP_ledger h deployed request
  have asking : (serveHTTP h deployed request).Reaches (events ++ [asked name req (.error [])]) _ :=
    reached.step (.error [] : Except Bytes GatewayResponse)
  constructor
  · have once := asked_once asking
    have single : (requestsOf [asked name req (.error [])]).length = 1 := rfl
    rw [requestsOf_append, List.length_append, single] at once
    exact List.eq_nil_of_length_eq_zero (by omega)
  · let Brought : Trace → Prop := fun t => ∀ name req reply, asked name req reply ∈ t →
      ∃ handler a, h.Brings request name req handler a
    have earlier : ∀ t t' : Trace, Brought (t ++ t') → Brought t :=
      fun t t' brought name req reply he => brought name req reply (List.mem_append_left t' he)
    have brought : Brought _ := (ledger.mono fun t _ ledger name req reply he =>
      ledger.sent he).interrupted earlier asking
    exact brought name req _ (List.mem_append_right events (List.mem_singleton_self _))

end Reached

theorem requestsOf_other {op : Op} (other : ∀ name req, op ≠ .doRequest name req) (t : Trace)
    (reply : world.Reply op) : requestsOf (t ++ [⟨op, reply⟩]) = requestsOf t := by
  rw [requestsOf_append]
  cases op with
  | doRequest name req => exact absurd rfl (other name req)
  | tell c | executeTemplate page | now | randomBoundary => exact List.append_nil _

/-- An operation that is no request to the gateway is done at once. -/
theorem advance_other {op : Op} (other : ∀ name req, op ≠ .doRequest name req) (h : Handler)
    (reply : (op : Op) → world.Reply op) (b : Browser) (request : Incoming) (events : Trace)
    (next : world.Reply op → Act Unit) :
    Thread.advance h reply ⟨b, request, events, .running (.call op next)⟩ =
      (⟨b, request, events ++ [⟨op, reply op⟩], .running (next (reply op))⟩, []) := by
  cases op with
  | doRequest name req => exact absurd rfl (other name req)
  | tell c | executeTemplate page | now | randomBoundary => rfl

/-- The request of a thread that has not asked the gateway. -/
def Thread.pending? (thread : Thread) : Option (Browser × Incoming) :=
  match thread.phase with
  | .running _ =>
    if requestsOf thread.events = [] then some (thread.browser, thread.request) else none
  | .waiting _ _ _ => none

/-- What a thread waits for. -/
def Thread.unanswered? (thread : Thread) : Option (Browser × Bytes × GatewayRequest) :=
  match thread.phase with
  | .running _ => none
  | .waiting name req _ => some (thread.browser, name, req)

/-- The desk that a state of the service stands for. -/
def System.desk (h : Handler) (s : System) : Desk where
  pending := s.threads.filterMap Thread.pending?
  unanswered := s.threads.filterMap Thread.unanswered?
  holds := fun b name token => Granted h b name token s.history

/-- What is seen of an action. -/
def System.note (h : Handler) (s : System) : Action → Option Note
  | .request b r keep => some (.arrived b { r with cookies := (s.jar b).filter keep })
  | .advance i reply =>
    (s.threads[i]?).bind fun thread => ((thread.advance h reply).2.head?).map .exchanged
  | .deliver _ _ => none

def System.machine (h : Handler) (deployed : Bool) : Machine System Note where
  init := .init
  Step s note s' := ∃ action, note = s.note h action ∧ s' = s.step h deployed action

section Desk
variable {h : Handler} {s : System} {thread : Thread}

/-- A thread among the others, and one in its place. -/
theorem threads_split {i : Nat} (found : s.threads[i]? = some thread) :
    ∃ others : List Thread, s.threads.Perm (thread :: others) ∧
      ∀ moved, (s.threads.set i moved).Perm (moved :: others) := by
  obtain ⟨lt, rfl⟩ := List.getElem?_eq_some_iff.mp found
  exact ⟨s.threads.eraseIdx i, (List.getElem_cons_eraseIdx_perm lt).symm,
    fun moved => List.set_perm_cons_eraseIdx lt moved⟩

theorem filterMap_among {α : Type} (f : Thread → Option α) {threads others : List Thread}
    (perm : threads.Perm (thread :: others)) :
    (threads.filterMap f : Multiset α) =
      (f thread).elim (others.filterMap f : Multiset α) fun x =>
        x ::ₘ (others.filterMap f : Multiset α) := by
  rw [Multiset.coe_eq_coe.mpr (perm.filterMap f), List.filterMap_cons]
  cases f thread <;> rfl

/-- The desk as one of the threads has it. -/
theorem desk_among {jar : Browser → List (Bytes × Bytes)} {threads others : List Thread}
    {history : List Exchange} (perm : threads.Perm (thread :: others)) :
    System.desk h ⟨jar, threads, history⟩ =
      { pending := (thread.pending?).elim (others.filterMap Thread.pending? : Multiset _)
          fun x => x ::ₘ (others.filterMap Thread.pending? : Multiset _)
        unanswered := (thread.unanswered?).elim (others.filterMap Thread.unanswered? : Multiset _)
          fun x => x ::ₘ (others.filterMap Thread.unanswered? : Multiset _)
        holds := fun b name token => Granted h b name token history } := by
  rw [System.desk, filterMap_among Thread.pending? perm, filterMap_among Thread.unanswered? perm]

theorem granted_sent {b b' : Browser} {name name' token : Bytes} {req : GatewayRequest}
    {history : List Exchange} :
    Granted h b' name' token (.sent b name req :: history) ↔ Granted h b' name' token history := by
  constructor
  · intro granted
    obtain ⟨req', rsp, ⟨earlier, suffix, sent⟩, status, issued⟩ := granted
    refine ⟨req', rsp, ⟨earlier, ?_, sent⟩, status, issued⟩
    cases List.suffix_cons_iff.mp suffix with
    | inl here => cases (List.cons.inj here).1
    | inr before => exact before
  · exact Granted.later (List.suffix_cons _ _)

theorem granted_answered {b b' : Browser} {name name' token : Bytes} {req : GatewayRequest}
    {reply : Except Bytes GatewayResponse} {history : List Exchange}
    (sent : .sent b name req ∈ history) :
    Granted h b' name' token (.answered b name req reply :: history) ↔
      Desk.grant h (fun b name token => Granted h b name token history) b name req reply b' name'
        token := by
  constructor
  · intro granted
    obtain ⟨req', rsp, ⟨earlier, suffix, asked⟩, status, issued⟩ := granted
    cases List.suffix_cons_iff.mp suffix with
    | inl here =>
        cases here
        exact .inr ⟨rfl, rfl, rsp, rfl, status, issued⟩
    | inr before => exact .inl ⟨req', rsp, ⟨earlier, before, asked⟩, status, issued⟩
  · intro granted
    cases granted with
    | inl before => exact before.later (List.suffix_cons _ _)
    | inr now =>
        obtain ⟨rfl, rfl, rsp, rfl, status, issued⟩ := now
        exact ⟨req, rsp, ⟨history, List.suffix_refl _, sent⟩, status, issued⟩

end Desk

/-- One operation of one thread is a step of the desk or not seen. -/
theorem advance_refines {h : Handler} {deployed : Bool} {s : System} {i : Nat} {thread : Thread}
    (sound : s.Sound h deployed) (found : s.threads[i]? = some thread)
    (reply : (op : Op) → world.Reply op) :
    let note := (thread.advance h reply).2.head?.map Note.exchanged
    let s' : System :=
      { s with
        threads := s.threads.set i (thread.advance h reply).1
        history := (thread.advance h reply).2 ++ s.history }
    note = none ∧ s'.desk h = s.desk h ∨ Desk.Step h (s.desk h) note (s'.desk h) := by
  have owner := sound.threads thread (List.mem_of_getElem? found)
  obtain ⟨others, before, after⟩ := threads_split found
  have now : s.desk h = _ := desk_among before
  obtain ⟨b, request, events, phase⟩ := thread
  cases phase with
  | running rest =>
      have reached := owner.reached
      simp only at reached
      cases rest with
      | pure a => exact .inl ⟨rfl, (desk_among (after _)).trans now.symm⟩
      | call op next =>
          by_cases asks : ∃ name req, op = .doRequest name req
          · obtain ⟨name, req, rfl⟩ := asks
            obtain ⟨unasked, handler, a, brings⟩ := about_to_ask reached
            have isolated := (advance_sound sound.isolated owner reply).1
            have authorized := isolated b name req s.history (List.suffix_refl _)
            refine .inr ?_
            rw [now, desk_among (after _)]
            simp only [Thread.advance, Thread.pending?, Thread.unanswered?, unasked, if_true,
              Option.elim_some, Option.elim_none, List.head?_cons, Option.map_some,
              List.singleton_append, granted_sent]
            exact .asks b request name req brings authorized
          · have other : ∀ name req, op ≠ .doRequest name req := fun name req e =>
              asks ⟨name, req, e⟩
            rw [advance_other other]
            refine .inl ⟨rfl, (desk_among (after _)).trans (Eq.trans ?_ now.symm)⟩
            simp only [Thread.pending?, Thread.unanswered?, requestsOf_other other, List.nil_append]
  | waiting name req next =>
      obtain ⟨reached, sent⟩ := owner.reached
      obtain ⟨unasked, -⟩ := about_to_ask reached
      simp only [Thread.advance]
      generalize (reply (.doRequest name req) : Except Bytes GatewayResponse) = answer
      split
      · refine .inr ?_
        have heard : requestsOf (events ++ [asked name req answer]) ≠ [] := by
          rw [requestsOf_append]
          exact List.append_ne_nil_of_right_ne_nil _ (List.cons_ne_nil req [])
        have granted : ∀ b' name' token,
            Granted h b' name' token (.answered b name req answer :: s.history) ↔ _ :=
          fun b' name' token => granted_answered sent
        rw [now, desk_among (after _)]
        simp only [Thread.pending?, Thread.unanswered?, heard, if_false, Option.elim_some,
          Option.elim_none, List.head?_cons, Option.map_some, List.singleton_append, granted]
        exact .hears b name req answer
      · exact .inl ⟨rfl, (desk_among (after _)).trans now.symm⟩

theorem step_refines {h : Handler} {deployed : Bool} {s : System} (sound : s.Sound h deployed)
    (action : Action) :
    s.note h action = none ∧ (s.step h deployed action).desk h = s.desk h ∨
      Desk.Step h (s.desk h) (s.note h action) ((s.step h deployed action).desk h) := by
  cases action with
  | request b r keep =>
      refine .inr ?_
      have perm := List.perm_append_singleton
        (⟨b, { r with cookies := (s.jar b).filter keep }, [], .running (serveHTTP h deployed
          { r with cookies := (s.jar b).filter keep })⟩ : Thread) s.threads
      simp only [System.step]
      rw [desk_among perm]
      exact .arrives b _
  | advance i reply =>
      cases found : s.threads[i]? with
      | none => exact .inl ⟨by simp [System.note, found], by simp [System.step, found]⟩
      | some thread =>
          have refines := advance_refines sound found reply
          simpa only [System.note, System.step, found, Option.bind_some] using refines
  | deliver i keep =>
      refine .inl ⟨rfl, ?_⟩
      simp only [System.step]
      cases s.threads[i]? <;> rfl

/-- The service refines the desk. -/
theorem machine_refines (h : Handler) (deployed : Bool) :
    (System.machine h deployed).Refines (Desk.machine h) fun s d =>
      s.Sound h deployed ∧ s.desk h = d where
  init := by
    have nothing : ∀ b name token, ¬Granted h b name token [] := by
      intro b name token granted
      obtain ⟨req, rsp, ⟨earlier, suffix, -⟩, -⟩ := granted
      cases List.suffix_nil.mp suffix
    refine ⟨init_sound h deployed, ?_⟩
    simp only [System.desk, System.machine, System.init, Desk.machine, nothing]
    rfl
  step := by
    rintro s _ note _ ⟨sound, rfl⟩ ⟨action, rfl, rfl⟩
    have kept := step_sound sound action
    cases step_refines sound action with
    | inl quiet => exact .inl ⟨quiet.1, kept, quiet.2⟩
    | inr moved => exact .inr ⟨_, moved, kept, rfl⟩

/-- All that is seen of a run. -/
def System.notes (h : Handler) (deployed : Bool) : System → List Action → List Note
  | _, [] => []
  | s, action :: actions =>
    (s.note h action).toList ++ System.notes h deployed (s.step h deployed action) actions

theorem machine_run {h : Handler} {deployed : Bool} {notes : List Note} {s : System}
    (run : (System.machine h deployed).Run notes s) (actions : List Action) :
    (System.machine h deployed).Run (notes ++ s.notes h deployed actions)
      (actions.foldl (System.step h deployed) s) := by
  induction actions generalizing notes s with
  | nil => simpa [System.notes] using run
  | cons action actions ih =>
      rw [System.notes, ← List.append_assoc]
      exact ih (.step run ⟨action, rfl, rfl⟩)

theorem system_run (h : Handler) (deployed : Bool) (actions : List Action) :
    (System.machine h deployed).Run (System.notes h deployed .init actions)
      (System.run h deployed actions) :=
  machine_run .init actions

def Note.exchange? : Note → Option Exchange
  | .arrived _ _ => none
  | .exchanged e => some e

theorem advance_exchanges (h : Handler) (reply : (op : Op) → world.Reply op) (thread : Thread) :
    (thread.advance h reply).2 = (thread.advance h reply).2.head?.toList := by
  obtain ⟨b, request, events, phase⟩ := thread
  cases phase with
  | running rest =>
      cases rest with
      | pure a => rfl
      | call op next => cases op <;> rfl
  | waiting name req next =>
      rw [Thread.advance]
      simp only
      split <;> rfl

/-- The history of a run is what is seen of it between the service and the gateway. -/
theorem history_notes {h : Handler} {deployed : Bool} {notes : List Note} {s : System}
    (run : (System.machine h deployed).Run notes s) :
    notes.filterMap Note.exchange? = s.history.reverse := by
  induction run with
  | init => rfl
  | @step notes s s' note run next ih =>
      obtain ⟨action, rfl, rfl⟩ := next
      rw [List.filterMap_append, ih]
      cases action with
      | request b r keep => simp [System.note, System.step, Note.exchange?]
      | advance i reply =>
          cases found : s.threads[i]? with
          | none => simp [System.note, System.step, found]
          | some thread =>
              have exchanges := advance_exchanges h reply thread
              simp only [System.note, System.step, found, Option.bind_some, List.reverse_append]
              rw [exchanges]
              cases (thread.advance h reply).2.head? <;> rfl
      | deliver i keep =>
          simp only [System.note, System.step]
          cases s.threads[i]? <;> simp

/-- In every run each request of a browser is brought to the gateway at most once,
as an operation that the decision list has for it; and each of these is answered at
most once, and only then no thread waits for it any more. -/
theorem exchanges_accounted (h : Handler) (deployed : Bool) (actions : List Action) :
    let s := System.run h deployed actions
    let notes := System.notes h deployed .init actions
    notes.filterMap Note.exchange? = s.history.reverse ∧
      ∃ brought, Desk.Accounts h notes (s.desk h) brought := by
  have shown := system_run h deployed actions
  obtain ⟨d, run, -, rfl⟩ := (machine_refines h deployed).run shown
  exact ⟨history_notes shown, Desk.accounts run⟩

end FileSharing
