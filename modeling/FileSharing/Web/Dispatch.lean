import FileSharing.Web.Routes

/-!
What the route table makes of a request. On a clean path the mux router scans
the table by segments, so the table is restated here row by row as the scan
sees it.
-/

namespace FileSharing
open Net Effects Mux

/-- What becomes of a request: the handler with the parameters it reads, or an
answer of the router. -/
inductive Dispatched where
  | endpoint (e : Endpoint) (sp : Except Bytes StorageParameters)
  | metrics
  | redirect (location : Bytes)
  | redirectHandler (url : Bytes)
  | methodNotAllowed
  | notFound

def dispatch (deployed : Bool) (request : Incoming) : Dispatched :=
  match (routes deployed).serveHTTP ⟨request.method, request.url⟩ with
  | .handle (.route r) vars => .endpoint r.handler (requestParameters (r.request request vars))
  | .handle .metrics _ => .metrics
  | .redirect location => .redirect location
  | .redirectHandler url => .redirectHandler url
  | .methodNotAllowed => .methodNotAllowed
  | .notFound => .notFound

/-- A request that reaches a handler runs it, and nothing else. -/
theorem serveHTTP_handler (h : Handler) {deployed : Bool} {request : Incoming} {name : HandlerName}
    {p : Except Bytes StorageParameters}
    (reached : dispatch deployed request = .endpoint (.handler name) p) :
    ∃ r : Request, r.toIncoming = request ∧ requestParameters r = p ∧
      ∀ Q : Trace → Unit → Prop,
        (serveHTTP h deployed request).Ensures Q ↔ (h.run name r).Ensures Q := by
  rw [dispatch] at reached
  split at reached
  · rename_i r vars served
    injection reached with endpoint parameters
    refine ⟨r.request request vars, rfl, parameters, ?_⟩
    intro Q
    rw [serveHTTP, served]
    simp only [Registered.serveHTTP, Handler.recoverMiddleware, storeRouterParametes, endpoint,
      Endpoint.serveHTTP, Program.ensures_bind, Program.pure_eq, Program.ensures_pure,
      List.append_nil]
    rfl
  all_goals cases reached

/-- The parameters always arrive: each context key is stored before it is read. -/
theorem requestParameters_routed (r : Route) (request : Incoming) (vars : List (Bytes × Bytes)) :
    requestParameters (r.request request vars) =
      .ok {
        storageName := varOf vars (str "storage")
        isPublic := r.isPublic
        isPermanent := r.permanentPath && decide (varOf vars (str "storage") ≠ [])
        fileName := varOf vars (str "file") } := by
  have distinct : str "contextUserName" ≠ str "contextPermanentStorage" ∧
      str "contextUserName" ≠ str "contextFileName" ∧
      str "contextUserName" ≠ str "contextPublicStorage" ∧
      str "contextPermanentStorage" ≠ str "contextFileName" ∧
      str "contextPermanentStorage" ≠ str "contextPublicStorage" ∧
      str "contextFileName" ≠ str "contextPublicStorage" := by
    decide
  obtain ⟨h1, h2, h3, h4, h5, h6⟩ := distinct
  by_cases hs : varOf vars (str "storage") = [] <;> by_cases hf : varOf vars (str "file") = [] <;>
    simp [requestParameters, Route.request, withRouterParameters, Incoming.routed,
      Incoming.withContext, muxVar, Context.value, Context.withValue, Ctxinfo.withPublicStorage,
      Ctxinfo.withUserName, Ctxinfo.withPermanentStorage, Ctxinfo.withFileName, Ctxinfo.userName,
      Ctxinfo.publicStorage, Ctxinfo.permanentStorage, Ctxinfo.fileName, Ctxinfo.getString,
      Ctxinfo.getBool, Ctxinfo.contextUserName, Ctxinfo.contextPermanentStorage,
      Ctxinfo.contextFileName, Ctxinfo.contextPublicStorage, orDefault, hs, hf, h2, h3, h4, h5,
      h6, h1.symm, h2.symm, h3.symm, h4.symm, h5.symm, h6.symm] <;>
    rfl

/-- The words of a pattern. -/
def Route.words (r : Route) : List SegPattern :=
  (segments r.pattern).map fun w => if w.head? = some openBrace then .var else .word w

def Route.names (r : Route) : List Bytes :=
  (segments r.pattern).filterMap fun w =>
    if w.head? = some openBrace then some w.tail.dropLast else none

/-- The compiled form of a route of the table. -/
def Route.regexp (r : Route) : RouteRegexp :=
  if r.isPrefix then
    { template := r.pattern, regexpType := .pathPrefix, strictSlash := false
      regexp := r.pattern.map .lit, varsN := [] }
  else
    { template := r.pattern, regexpType := .path, strictSlash := true, regexp := segToks r.words
      varsN := r.names }

def Route.registered (r : Route) : Mux.Route Registered :=
  { matchers := [.regexp r.regexp, .methods (r.methods.splitOn 0x2C)], path := some r.regexp
    handler := some (.route r), err := false }

def metricsRegexp : RouteRegexp :=
  { template := str "/metrics/", regexpType := .path, strictSlash := true
    regexp := segToks [.word (str "metrics")], varsN := [] }

def metricsRoute : Mux.Route Registered :=
  { matchers := [.regexp metricsRegexp], path := some metricsRegexp, handler := some .metrics
    err := false }

theorem routes_eq (deployed : Bool) : (routes deployed).routes =
    (if deployed then [metricsRoute] else []) ++ configure.map Route.registered := by
  cases deployed <;> decide

theorem routes_handler (deployed : Bool) : ∀ r ∈ (routes deployed).routes, r.handler.isSome := by
  rw [routes_eq]
  intro r hr
  cases List.mem_append.mp hr with
  | inl hr =>
      cases deployed with
      | false => cases hr
      | true =>
          rw [List.mem_singleton.mp hr]
          rfl
  | inr hr =>
      obtain ⟨r, -, rfl⟩ := List.mem_map.mp hr
      rfl

theorem words_proper (r : Route) : ∀ p ∈ r.words, p.Proper := by
  intro p hp
  obtain ⟨w, hw, rfl⟩ := List.mem_map.mp hp
  have seg := isSegment_of_mem_segments hw
  split
  · trivial
  · exact ⟨seg.nonempty, seg.noSlash⟩

/-- A route as the scan sees it. -/
structure Row where
  words : List SegPattern
  literal : Option Bytes
  methods : List Bytes
  endpoint : Endpoint
  isPublic : Bool
  isPermanent : Bool
  names : List Bytes
  slashed : Bool
deriving DecidableEq

def Route.row (r : Route) : Row :=
  { words := r.words, literal := if r.isPrefix then some r.pattern else none
    methods := r.methods.splitOn 0x2C, endpoint := r.handler, isPublic := r.isPublic
    isPermanent := r.permanentPath, names := r.names, slashed := hasSlash r.pattern }

/-- What the pattern of a row captures of a path given by its segments. -/
def Row.captures (row : Row) (segs : List Bytes) (trailing : Bool) : Option (List Bytes) :=
  match row.literal with
  | some text => if text <+: pathOf segs trailing then some [] else none
  | none => matchSegs row.words segs

/-- What a matching row answers on a path it fits. -/
def Row.answer (row : Row) (caps : List Bytes) (u : URL) : Dispatched :=
  if row.literal = none ∧ hasSlash u.path ≠ row.slashed then
    .redirectHandler (toggleSlash u).string
  else
    .endpoint row.endpoint (.ok {
      storageName := varOf (row.names.zip caps) (str "storage")
      isPublic := row.isPublic
      isPermanent := row.isPermanent && decide (varOf (row.names.zip caps) (str "storage") ≠ [])
      fileName := varOf (row.names.zip caps) (str "file") })

/-- The scan of the table on a clean path. -/
def scan (rows : List Row) (method : Bytes) (segs : List Bytes) (trailing : Bool) (u : URL) :
    Dispatched :=
  match rows.find? fun row => (row.captures segs trailing).isSome && row.methods.contains method with
  | some row => row.answer ((row.captures segs trailing).getD []) u
  | none =>
    if rows.any fun row => (row.captures segs trailing).isSome then .methodNotAllowed
    else .notFound

theorem findSubmatch_regexp (r : Route) {segs : List Bytes} (hs : ∀ s ∈ segs, IsSegment s)
    (trailing : Bool) :
    findSubmatch r.regexp.regexp (pathOf segs trailing) = r.row.captures segs trailing := by
  cases hp : r.isPrefix with
  | true =>
      simp only [Route.regexp, Row.captures, Route.row, hp, if_true]
      exact findSubmatch_literal _ _
  | false =>
      simp only [Route.regexp, Row.captures, Route.row, hp, Bool.false_eq_true, if_false]
      exact findSubmatch_pathOf (words_proper r) hs trailing

theorem names_eq_nil : ∀ r ∈ configure, r.isPrefix → r.names = [] := by
  decide

section Registered
variable (r : Route) (req : Mux.Req) {segs : List Bytes} (hs : ∀ s ∈ segs, IsSegment s)
  (trailing : Bool) (hpath : req.url.path = pathOf segs trailing)

theorem allows_registered : r.registered.allows req.method = r.row.methods.contains req.method := by
  simp [Mux.Route.allows, Route.registered, Route.row]

include hs hpath

theorem fits_registered :
    r.registered.fits req.url.path = (r.row.captures segs trailing).isSome := by
  simp [Mux.Route.fits, Route.registered, RouteRegexp.matchString, hpath,
    findSubmatch_regexp r hs trailing]

/-- A route that fits hands its captures to its handler, or redirects. -/
theorem answer_registered (hr : r ∈ configure) {caps : List Bytes}
    (hcaps : r.row.captures segs trailing = some caps) :
    r.registered.answer (.route r) req =
      if r.row.literal = none ∧ hasSlash req.url.path ≠ r.row.slashed then
        .redirectHandler (toggleSlash req.url).string
      else .handle (.route r) (r.names.zip caps) := by
  have sub : findSubmatch r.regexp.regexp req.url.path = some caps := by
    rw [hpath, findSubmatch_regexp r hs, hcaps]
  cases hp : r.isPrefix with
  | true =>
      have names := names_eq_nil r hr hp
      simp [Mux.Route.answer, setMatch, Route.registered, sub, Route.row, hp]
      simp [Route.regexp, hp, names]
  | false =>
      by_cases slashes : hasSlash req.url.path = hasSlash r.pattern
      · simp [Mux.Route.answer, setMatch, Route.registered, sub, Route.row, hp]
        simp [Route.regexp, hp, slashes]
      · simp [Mux.Route.answer, setMatch, Route.registered, sub, Route.row, hp]
        simp [Route.regexp, hp, slashes]

theorem clean_of_segments : cleanPath req.url.path = req.url.path := by
  rw [hpath]
  exact cleanPath_pathOf hs trailing

end Registered

theorem dispatch_eq_scan (request : Incoming) {segs : List Bytes} (hs : ∀ s ∈ segs, IsSegment s)
    (trailing : Bool) (hpath : request.url.path = pathOf segs trailing) :
    dispatch false request =
      scan (configure.map Route.row) request.method segs trailing request.url := by
  let req : Mux.Req := ⟨request.method, request.url⟩
  have fits : ∀ r : Route, r.registered.fits request.url.path = (r.row.captures segs trailing).isSome :=
    fun r => fits_registered r req hs trailing hpath
  have allows : ∀ r : Route,
      r.registered.allows request.method = r.row.methods.contains request.method :=
    fun r => allows_registered r req
  have serve := serveHTTP_eq (routes false) req (routes_handler false)
    (clean_of_segments req hs trailing hpath)
  have plain : (routes false).routes = configure.map Route.registered := routes_eq false
  rw [dispatch, serve, firstMatch, scan, plain, List.find?_map, List.any_map, List.find?_map,
    List.any_map]
  simp only [Function.comp_def, req, fits, allows]
  cases found : configure.find? fun r =>
      (r.row.captures segs trailing).isSome && r.row.methods.contains request.method with
  | none =>
      by_cases fit : configure.any fun r => (r.row.captures segs trailing).isSome
      · simp [fit]
      · simp [fit]
  | some r =>
      have hr : r ∈ configure := List.mem_of_find?_eq_some found
      have hfit := List.find?_some found
      obtain ⟨caps, hcaps⟩ := Option.isSome_iff_exists.mp (Bool.and_eq_true_iff.mp hfit).1
      have answer := answer_registered r req hs trailing hpath hr hcaps
      have handler : r.registered.handler = some (.route r) := rfl
      simp only [Option.map_some, handler, hcaps, Option.getD_some]
      rw [answer, Row.answer]
      by_cases slashes : r.row.literal = none ∧ hasSlash request.url.path ≠ r.row.slashed
      · rw [if_pos slashes, if_pos slashes]
      · rw [if_neg slashes, if_neg slashes]
        simp only [requestParameters_routed]
        rfl

/-- A request reaches a handler on a clean path only, through a route of the
table that fits it, with what that route captures. -/
theorem handled {deployed : Bool} {request : Incoming} {r : Route} {vars : List (Bytes × Bytes)}
    (served : (routes deployed).serveHTTP ⟨request.method, request.url⟩ = .handle (.route r) vars) :
    r ∈ configure ∧ ∃ trailing caps,
      request.url.path = pathOf (segments request.url.path) trailing ∧
      r.row.captures (segments request.url.path) trailing = some caps ∧
      vars = r.names.zip caps := by
  let req : Mux.Req := ⟨request.method, request.url⟩
  have clean : cleanPath req.url.path = req.url.path := by
    by_contra h
    rw [Mux.Router.serveHTTP, if_pos ⟨by cases deployed <;> decide, h⟩] at served
    cases served
  obtain ⟨trailing, form⟩ := cleanPath_eq request.url.path
  have hpath : req.url.path = pathOf (segments req.url.path) trailing := clean.symm.trans form
  have hs : ∀ s ∈ segments req.url.path, IsSegment s := fun s hs => isSegment_of_mem_segments hs
  obtain ⟨route, target, found, handler, answer⟩ :=
    serveHTTP_found (routes_handler deployed) clean served (by simp) (by simp)
  have member := List.mem_of_find?_eq_some found
  have matched := List.find?_some found
  simp only [Bool.and_eq_true] at matched
  have fits : route.fits req.url.path = true := matched.1
  rw [← answer_handle answer] at handler answer
  rw [routes_eq] at member
  cases List.mem_append.mp member with
  | inl metrics =>
      cases deployed with
      | false => cases metrics
      | true =>
          rw [List.mem_singleton.mp metrics] at handler
          cases handler
  | inr table =>
      obtain ⟨r', hr', rfl⟩ := List.mem_map.mp table
      cases handler
      rw [fits_registered r req hs trailing hpath] at fits
      obtain ⟨caps, hcaps⟩ := Option.isSome_iff_exists.mp fits
      rw [answer_registered r req hs trailing hpath hr' hcaps] at answer
      split at answer
      · cases answer
      · injection answer with _ captured
        exact ⟨hr', trailing, caps, hpath, hcaps, captured.symm⟩

/-- On the router that the service runs, the metrics page comes first. -/
theorem dispatch_deployed (request : Incoming) {segs : List Bytes} (hs : ∀ s ∈ segs, IsSegment s)
    (trailing : Bool) (hpath : request.url.path = pathOf segs trailing) :
    dispatch true request =
      if segs = [str "metrics"] then
        if trailing then .metrics else .redirectHandler (toggleSlash request.url).string
      else dispatch false request := by
  let req : Mux.Req := ⟨request.method, request.url⟩
  have clean := clean_of_segments req hs trailing hpath
  have proper : ∀ p ∈ [SegPattern.word (str "metrics")], p.Proper := by
    intro p hp
    rw [List.mem_singleton.mp hp]
    exact ⟨by decide, by decide⟩
  have captures : findSubmatch metricsRegexp.regexp request.url.path =
      if segs = [str "metrics"] then some [] else none := by
    rw [hpath]
    refine (findSubmatch_pathOf proper hs trailing).trans ?_
    match segs with
    | [] => rfl
    | [s] => simp [matchSegs]
    | s :: t :: segs => by_cases h : s = str "metrics" <;> simp [matchSegs, h]
  have fits : metricsRoute.fits request.url.path = decide (segs = [str "metrics"]) := by
    by_cases h : segs = [str "metrics"] <;>
      simp [Mux.Route.fits, metricsRoute, RouteRegexp.matchString, captures, h]
  have allows : metricsRoute.allows request.method = true := rfl
  have rest : (routes true).routes = metricsRoute :: (routes false).routes := by
    rw [routes_eq, routes_eq]
    rfl
  rw [dispatch, dispatch, serveHTTP_eq (routes true) req (routes_handler true) clean,
    serveHTTP_eq (routes false) req (routes_handler false) clean, firstMatch, rest]
  by_cases h : segs = [str "metrics"]
  · have slashed : hasSlash request.url.path = trailing := by
      rw [hpath]
      exact hasSlash_pathOf hs (by simp [h]) trailing
    have template : hasSlash metricsRegexp.template = true := by decide
    have strict : metricsRegexp.strictSlash = true := rfl
    have vars : metricsRegexp.varsN = [] := rfl
    have answer : metricsRoute.answer .metrics req =
        if trailing then .handle .metrics [] else .redirectHandler (toggleSlash request.url).string := by
      simp only [h, if_true] at captures
      cases trailing <;>
        simp [Mux.Route.answer, setMatch, metricsRoute, captures, slashed, template, strict, vars,
          req]
    have handler : metricsRoute.handler = some .metrics := rfl
    simp only [req, List.find?_cons, fits, allows, h, decide_true, Bool.and_self, handler]
    rw [answer]
    cases trailing <;> rfl
  · simp only [req, List.find?_cons, List.any_cons, fits, h, decide_false, Bool.false_and,
      Bool.false_or, if_false, firstMatch]

def get : List Bytes := [str "GET"]
def post : List Bytes := [str "POST"]
def storageVar : List Bytes := [str "storage"]
def fileVars : List Bytes := [str "storage", str "file"]

def table : List Row :=
  [ ⟨[], none, get, .redirectCommon, true, false, [], true⟩,
    ⟨[.word (str "res")], some (str "/res/"), get, .fileServer, true, false, [], true⟩,
    ⟨[.word (str "register")], none, get ++ post, .handler .registerHandler, true, false, [], true⟩,
    ⟨[.word (str "login"), .var], none, get ++ post, .handler .loginHandler, true, false,
      storageVar, true⟩,
    ⟨[.var, .word (str "index.html")], none, get, .handler .indexHTMLHandler, false, false,
      storageVar, false⟩,
    ⟨[.var, .word (str "permanent"), .word (str "index.html")], none, get,
      .handler .indexHTMLHandler, false, true, storageVar, false⟩,
    ⟨[.var, .word (str "permanent"), .var], none, get, .handler .getFileHandler, false, true,
      fileVars, true⟩,
    ⟨[.var, .word (str "permanent")], none, get, .handler .viewHandler, false, true, storageVar,
      true⟩,
    ⟨[.var, .var], none, get, .handler .getFileHandler, false, false, fileVars, true⟩,
    ⟨[.var], none, get, .handler .viewHandler, false, false, storageVar, true⟩,
    ⟨[.var, .word (str "upload")], none, post, .handler .uploadHandler, false, false, storageVar,
      true⟩,
    ⟨[.var, .word (str "permanent"), .word (str "upload")], none, post, .handler .uploadHandler,
      false, true, storageVar, true⟩,
    ⟨[.var, .word (str "remove")], none, post, .handler .removeHandler, false, false, storageVar,
      true⟩,
    ⟨[.var, .word (str "permanent"), .word (str "remove")], none, post, .handler .removeHandler,
      false, true, storageVar, true⟩,
    ⟨[.var, .word (str "shareText")], none, post, .handler .shareTextHandler, false, false,
      storageVar, true⟩,
    ⟨[.var, .word (str "permanent"), .word (str "shareText")], none, post,
      .handler .shareTextHandler, false, true, storageVar, true⟩ ]

theorem table_eq : configure.map Route.row = table := by
  decide

/-- A prefix pattern of one word matches below the word, and at it with a slash. -/
theorem word_isPrefix_iff {w : Bytes} (hw : slash ∉ w) {segs : List Bytes}
    (hs : ∀ s ∈ segs, IsSegment s) (trailing : Bool) :
    slash :: w ++ [slash] <+: pathOf segs trailing ↔
      segs.head? = some w ∧ (trailing = true ∨ 1 < segs.length) := by
  cases segs with
  | nil =>
      simp only [pathOf_nil, List.head?_nil, reduceCtorEq, false_and, iff_false]
      intro h
      have := h.length_le
      simp at this
  | cons s segs =>
      have seg := (hs s List.mem_cons_self).noSlash
      have notSlash : ∀ {t : Bytes}, slash ∉ t → ∀ c ∈ t, (c != slash) = true := by
        intro t ht c hc
        simpa using fun e : c = slash => ht (e ▸ hc)
      have rest := atSlash_tail segs trailing
      have more : (segs.flatMap (slash :: ·) ++ if trailing then [slash] else []) = [] ↔
          ¬(trailing = true ∨ 1 < (s :: segs).length) := by
        cases trailing <;> cases segs <;> simp
      rw [pathOf_cons]
      generalize (segs.flatMap (slash :: ·) ++ if trailing then [slash] else []) = tail at rest more
      rw [List.cons_append, List.cons_append, List.cons_prefix_cons, List.head?_cons,
        Option.some_inj]
      constructor
      · intro h
        obtain ⟨t, ht⟩ := h.2
        have word := takeWhile_segment (slash :: t) (notSlash hw) (by simp)
        have segm := takeWhile_segment tail (notSlash seg) (by
          intro c hc
          simp [rest c hc])
        rw [← ht, List.append_assoc, List.singleton_append, word.1, word.2] at segm
        refine ⟨segm.1.symm, ?_⟩
        by_contra none
        have nil := more.mpr none
        rw [nil] at segm
        cases segm.2
      · intro h
        obtain ⟨rfl, some⟩ := h
        refine ⟨rfl, ?_⟩
        cases tail with
        | nil => exact absurd some (more.mp rfl)
        | cons c tail =>
            rw [rest c rfl]
            exact ⟨tail, by simp⟩

end FileSharing
