import FileSharing.Mux.Regexp
import FileSharing.Net.Location

/-!
The matching half of the vendored `gorilla/mux`: routes with their matchers,
the scan of `Router.Match` with its remembered method mismatch, and
`Router.ServeHTTP` with path cleaning. `serveHTTP_eq` states what the scan
computes: the first route that fits the path and allows the method.
-/

namespace Mux
open Net

inductive MatchErr where
  | methodMismatch
  | notFound
deriving DecidableEq

inductive Matcher where
  | regexp (r : RouteRegexp)
  | methods (ms : List Bytes)
deriving DecidableEq

structure Route (H : Type) where
  matchers : List Matcher
  path : Option RouteRegexp
  handler : Option H
  err : Bool
deriving DecidableEq

structure Router (H : Type) where
  routes : List (Route H)
  strictSlash : Bool
  skipClean : Bool

/-- What the router itself reads of a request. -/
structure Req where
  method : Bytes
  url : URL

/-- A registered handler, or the `http.RedirectHandler` of strict slash. -/
inductive Target (H : Type) where
  | user (h : H)
  | redirectHandler (url : Bytes)

structure RouteMatch (H : Type) where
  handler : Option (Target H)
  vars : List (Bytes × Bytes)
  matchErr : Option MatchErr

variable {H : Type}

/-- mux.NewRouter() followed by StrictSlash(value). -/
def newRouter (strictSlash : Bool) : Router H :=
  { routes := [], strictSlash, skipClean := false }

def newRoute : Route H := { matchers := [], path := none, handler := none, err := false }

/-- addRegexpMatcher for a path or a prefix template on a fresh route. -/
def Route.addRegexpMatcher (r : Route H) (tpl : Bytes) (typ : RegexpType)
    (strictSlash : Bool) : Route H :=
  if r.err then r
  else if tpl ≠ [] ∧ tpl.head? ≠ some slash then { r with err := true }
  else
    match newRouteRegexp tpl typ strictSlash with
    | none => { r with err := true }
    | some rr => { r with path := some rr, matchers := r.matchers ++ [.regexp rr] }

def toUpper (s : Bytes) : Bytes := s.map fun c => if isLower c then c - 0x20 else c

def Route.addMethods (r : Route H) (ms : List Bytes) : Route H :=
  if r.err then r else { r with matchers := r.matchers ++ [.methods (ms.map toUpper)] }

def Route.setHandler (r : Route H) (h : H) : Route H :=
  if r.err then r else { r with handler := some h }

def RouteRegexp.matchString (r : RouteRegexp) (p : Bytes) : Bool :=
  (findSubmatch r.regexp p).isSome

def hasSlash (p : Bytes) : Bool := p.getLast? == some slash

/-- The URL with its trailing slash removed or added. -/
def toggleSlash (u : URL) : URL :=
  { u with path := if hasSlash u.path then u.path.dropLast else u.path ++ [slash] }

/-- routeRegexpGroup.setMatch for the path part. -/
def setMatch (path : Option RouteRegexp) (req : Req) (m : RouteMatch H) : RouteMatch H :=
  match path with
  | none => m
  | some rr =>
    match findSubmatch rr.regexp req.url.path with
    | none => m
    | some caps =>
      let m := { m with vars := rr.varsN.zip caps ++ m.vars }
      if rr.strictSlash ∧ hasSlash req.url.path ≠ hasSlash rr.template then
        { m with handler := some (.redirectHandler (toggleSlash req.url).string) }
      else m

/-- The loop of Route.Match: `none` when a matcher other than the methods fails,
otherwise whether a method matcher failed. -/
def Route.runMatchers (req : Req) :
    List Matcher → Bool → RouteMatch H → Option Bool × RouteMatch H
  | [], mismatch, m => (some mismatch, m)
  | .regexp rr :: rest, mismatch, m =>
    if rr.matchString req.url.path then runMatchers req rest mismatch m
    else (none, if m.matchErr = some .notFound then { m with matchErr := none } else m)
  | .methods ms :: rest, mismatch, m =>
    runMatchers req rest (mismatch || !ms.contains req.method) m

def Route.match (r : Route H) (req : Req) (m : RouteMatch H) : Bool × RouteMatch H :=
  if r.err then (false, m)
  else
    match runMatchers req r.matchers false m with
    | (none, m) => (false, m)
    | (some true, m) => (false, { m with matchErr := some .methodMismatch })
    | (some false, m) =>
      let m :=
        if m.matchErr = some .methodMismatch ∧ r.handler.isSome then
          { m with matchErr := none, handler := r.handler.map .user }
        else m
      let m := { m with handler := m.handler.or (r.handler.map .user) }
      (true, setMatch r.path req m)

/-- Router.Match without custom handlers, middlewares or subrouters. -/
def matchRoutes (req : Req) : List (Route H) → RouteMatch H → Bool × RouteMatch H
  | [], m =>
    if m.matchErr = some .methodMismatch then (false, m)
    else (false, { m with matchErr := some .notFound })
  | r :: rest, m =>
    match r.match req m with
    | (true, m) => (true, m)
    | (false, m) => matchRoutes req rest m

def cleanPath (p : Bytes) : Bytes :=
  if p = [] then [slash]
  else
    let p := if p.head? = some slash then p else slash :: p
    let np := clean p
    if hasSlash p ∧ np ≠ [slash] then np ++ [slash] else np

inductive Served (H : Type) where
  | redirect (location : Bytes)
  | redirectHandler (url : Bytes)
  | handle (h : H) (vars : List (Bytes × Bytes))
  | methodNotAllowed
  | notFound
deriving DecidableEq

/-- Router.ServeHTTP up to the call of the handler. -/
def Router.serveHTTP (router : Router H) (req : Req) : Served H :=
  if ¬router.skipClean ∧ cleanPath req.url.path ≠ req.url.path then
    .redirect { req.url with path := cleanPath req.url.path }.string
  else
    match matchRoutes req router.routes ⟨none, [], none⟩ with
    | (true, ⟨some (.user h), vars, _⟩) => .handle h vars
    | (true, ⟨some (.redirectHandler url), _, _⟩) => .redirectHandler url
    | (_, m) => if m.matchErr = some .methodMismatch then .methodNotAllowed else .notFound

/-- All path expressions of the route match. -/
def Route.fits (r : Route H) (p : Bytes) : Bool :=
  !r.err && r.matchers.all fun
    | .regexp rr => rr.matchString p
    | .methods _ => true

def Route.allows (r : Route H) (method : Bytes) : Bool :=
  r.matchers.all fun
    | .regexp _ => true
    | .methods ms => ms.contains method

/-- A route that has its handler, as every finished registration has. -/
def Route.answer (r : Route H) (h : H) (req : Req) : Served H :=
  match setMatch r.path req ⟨some (.user h), [], none⟩ with
  | ⟨some (.user h), vars, _⟩ => .handle h vars
  | ⟨some (.redirectHandler url), _, _⟩ => .redirectHandler url
  | _ => .notFound

/-- The specification of the scan. -/
def firstMatch (req : Req) (routes : List (Route H)) : Served H :=
  match routes.find? fun r => r.fits req.url.path && r.allows req.method with
  | some r =>
    match r.handler with
    | some h => r.answer h req
    | none => .notFound
  | none => if routes.any fun r => r.fits req.url.path then .methodNotAllowed else .notFound

theorem runMatchers_eq (req : Req) (ms : List Matcher) (mismatch : Bool) (m : RouteMatch H)
    (hm : m.matchErr ≠ some .notFound) :
    Route.runMatchers req ms mismatch m =
      (if ms.all (fun | .regexp rr => rr.matchString req.url.path | .methods _ => true) then
        some (mismatch ||
          !ms.all (fun | .regexp _ => true | .methods ms => ms.contains req.method))
      else none, m) := by
  induction ms generalizing mismatch with
  | nil => simp [Route.runMatchers]
  | cons x ms ih =>
      cases x with
      | regexp rr =>
          cases h : rr.matchString req.url.path <;>
            simp [Route.runMatchers, h, hm, ih]
      | methods l => simp [Route.runMatchers, ih, Bool.or_assoc]

theorem match_eq (r : Route H) (req : Req) (hh : r.handler.isSome) {e : Option MatchErr}
    (he : e ≠ some .notFound) :
    r.match req ⟨none, [], e⟩ =
      if r.fits req.url.path then
        if r.allows req.method then
          (true, setMatch r.path req ⟨r.handler.map .user, [], none⟩)
        else (false, ⟨none, [], some .methodMismatch⟩)
      else (false, ⟨none, [], e⟩) := by
  obtain ⟨h, hr⟩ := Option.isSome_iff_exists.mp hh
  cases herr : r.err with
  | true => simp [Route.match, Route.fits, herr]
  | false =>
      have run : Route.runMatchers req r.matchers false ⟨none, [], e⟩ =
          (if r.fits req.url.path then some (!r.allows req.method) else none,
            (⟨none, [], e⟩ : RouteMatch H)) := by
        rw [runMatchers_eq req r.matchers false _ he]
        simp [Route.fits, Route.allows, herr]
      rw [Route.match, run]
      cases r.fits req.url.path with
      | false => simp [herr]
      | true =>
          cases r.allows req.method with
          | false => simp [herr]
          | true =>
              have remembered : e = none ∨ e = some .methodMismatch := by
                match e with
                | none => exact .inl rfl
                | some .methodMismatch => exact .inr rfl
                | some .notFound => exact absurd rfl he
              cases remembered with
              | inl h0 => simp [herr, hr, h0]
              | inr h0 => simp [herr, hr, h0]

theorem matchRoutes_eq (req : Req) (routes : List (Route H))
    (hh : ∀ r ∈ routes, r.handler.isSome) {e : Option MatchErr} (he : e ≠ some .notFound) :
    matchRoutes req routes ⟨none, [], e⟩ =
      match routes.find? fun r => r.fits req.url.path && r.allows req.method with
      | some r => (true, setMatch r.path req ⟨r.handler.map .user, [], none⟩)
      | none => (false, ⟨none, [],
          if e = some .methodMismatch ∨ routes.any fun r => r.fits req.url.path then
            some .methodMismatch
          else some .notFound⟩) := by
  induction routes generalizing e with
  | nil => by_cases h : e = some .methodMismatch <;> simp [matchRoutes, h]
  | cons r routes ih =>
      have handlers : ∀ s ∈ routes, s.handler.isSome := fun s hs =>
        hh s (List.mem_cons_of_mem _ hs)
      rw [matchRoutes, match_eq r req (hh r List.mem_cons_self) he]
      cases hf : r.fits req.url.path with
      | false => simp [ih handlers he, hf]
      | true =>
          cases ha : r.allows req.method with
          | false =>
              simp only [if_pos, Bool.false_eq_true, if_false, List.find?_cons, hf, ha]
              rw [ih handlers (by decide)]
              simp [hf]
          | true => simp [hf, ha]

theorem setMatch_handler (path : Option RouteRegexp) (req : Req) (t : Target H) :
    ∃ t' vars, setMatch path req ⟨some t, [], none⟩ = ⟨some t', vars, none⟩ ∧
      (t' = t ∨ ∃ url, t' = .redirectHandler url) := by
  unfold setMatch
  split
  · exact ⟨t, [], rfl, .inl rfl⟩
  · split
    · exact ⟨t, [], rfl, .inl rfl⟩
    · split
      · exact ⟨_, _, rfl, .inr ⟨_, rfl⟩⟩
      · exact ⟨_, _, rfl, .inl rfl⟩

/-- A route hands a request to its own handler or to a redirect. -/
theorem answer_handle {r : Route H} {h h' : H} {req : Req} {vars : List (Bytes × Bytes)}
    (handled : r.answer h req = .handle h' vars) : h' = h := by
  obtain ⟨t, vars', ht, own⟩ := setMatch_handler r.path req (.user h)
  rw [Route.answer, ht] at handled
  cases own with
  | inl own =>
      subst own
      cases handled
      rfl
  | inr redirect =>
      obtain ⟨url, rfl⟩ := redirect
      cases handled

/-- On a clean path ServeHTTP is the first match, or the recorded reason why
there is none. -/
theorem serveHTTP_eq (router : Router H) (req : Req)
    (hh : ∀ r ∈ router.routes, r.handler.isSome)
    (clean : cleanPath req.url.path = req.url.path) :
    router.serveHTTP req = firstMatch req router.routes := by
  rw [Router.serveHTTP, if_neg (by simp [clean]), matchRoutes_eq req _ hh (by decide), firstMatch]
  cases found : router.routes.find? fun r => r.fits req.url.path && r.allows req.method with
  | none => cases router.routes.any fun r => r.fits req.url.path <;> simp
  | some r =>
      obtain ⟨h, hr⟩ := Option.isSome_iff_exists.mp (hh r (List.mem_of_find?_eq_some found))
      obtain ⟨t, vars, ht, -⟩ := setMatch_handler r.path req (.user h)
      simp only [hr, Option.map_some, Route.answer, ht]
      cases t <;> rfl

/-- A clean path that is not refused is answered by the first route that fits it
and allows the method. -/
theorem serveHTTP_found {router : Router H} {req : Req}
    (hh : ∀ r ∈ router.routes, r.handler.isSome)
    (clean : cleanPath req.url.path = req.url.path) {served : Served H}
    (serve : router.serveHTTP req = served) (allowed : served ≠ .methodNotAllowed)
    (present : served ≠ .notFound) :
    ∃ r h, (router.routes.find? fun r => r.fits req.url.path && r.allows req.method) = some r ∧
      r.handler = some h ∧ r.answer h req = served := by
  rw [serveHTTP_eq router req hh clean, firstMatch] at serve
  cases found : router.routes.find? fun r => r.fits req.url.path && r.allows req.method with
  | none =>
      simp only [found] at serve
      split at serve
      · exact absurd serve.symm allowed
      · exact absurd serve.symm present
  | some r =>
      obtain ⟨h, handler⟩ := Option.isSome_iff_exists.mp (hh r (List.mem_of_find?_eq_some found))
      simp only [found, handler] at serve
      exact ⟨r, h, rfl, handler, serve⟩

theorem hasSlash_pathOf {segs : List Bytes} (h : ∀ s ∈ segs, IsSegment s) (hne : segs ≠ [])
    (trailing : Bool) : hasSlash (pathOf segs trailing) = trailing := by
  rw [Bool.eq_iff_iff, ← getLast_pathOf h hne trailing]
  exact beq_iff_eq

theorem pathOf_ne_slash {segs : List Bytes} (h : ∀ s ∈ segs, IsSegment s) (hne : segs ≠ [])
    (trailing : Bool) : pathOf segs trailing ≠ [slash] := by
  cases segs with
  | nil => exact absurd rfl hne
  | cons s segs =>
      have seg := (h s List.mem_cons_self).nonempty
      simp [pathOf_cons, seg]

theorem head_pathOf (segs : List Bytes) (trailing : Bool) :
    (pathOf segs trailing).head? = some slash := by
  cases segs <;> rfl

/-- A clean path is its segments and the presence of a trailing slash. -/
theorem cleanPath_eq (p : Bytes) : ∃ trailing, cleanPath p = pathOf (segments p) trailing := by
  unfold cleanPath
  split
  · rename_i h
    subst h
    exact ⟨true, rfl⟩
  · have kept : segments (if p.head? = some slash then p else slash :: p) = segments p := by
      split
      · rfl
      · exact segments_slash p
    generalize (if p.head? = some slash then p else slash :: p) = q at kept
    simp only [clean, kept]
    cases hs : segments p with
    | nil => exact ⟨true, by simp⟩
    | cons s segs =>
        by_cases h : hasSlash q = true ∧ pathOf (s :: segs) false ≠ [slash]
        · exact ⟨true, by rw [if_pos h]; simp [pathOf]⟩
        · exact ⟨false, if_neg h⟩

theorem cleanPath_pathOf {segs : List Bytes} (h : ∀ s ∈ segs, IsSegment s) (trailing : Bool) :
    cleanPath (pathOf segs trailing) = pathOf segs trailing := by
  have head := head_pathOf segs trailing
  have nonempty : pathOf segs trailing ≠ [] := fun e => by simp [e] at head
  simp only [cleanPath, nonempty, head, if_false, if_true, clean, segments_pathOf h]
  cases segs with
  | nil => simp
  | cons s segs =>
      have hne := List.cons_ne_nil s segs
      rw [hasSlash_pathOf h hne]
      cases trailing with
      | true =>
          rw [if_pos ⟨rfl, pathOf_ne_slash h hne false⟩]
          simp [pathOf]
      | false => simp

end Mux
